/-
Routines that may panic. Under the results and the errors of a routine are the faults that end the program: a machine
sum, difference or product that leaves its type, an index or a slice out of range. Where overflow is not checked, the
numbers wrap. A routine runs as a fallible computation when it comes to the same result without a fault.
-/
import Mathlib.Algebra.Group.Int.Defs
import Mathlib.Algebra.Group.Nat.Defs
import Mathlib.Data.List.GetD

namespace Panics

open List

/-- The panics that a checked build has. -/
inductive Panic
  | overflow
  | outOfRange
  deriving DecidableEq

/-- A computation with errors of its own, over one that panics. -/
abbrev Routine (ε : Type) := ExceptT ε (Except Panic)

variable {ε α β : Type}

def abort (fault : Panic) : Routine ε α := ExceptT.mk (.error fault)

/-- A computation without faults. -/
def lift (y : Except ε α) : Routine ε α := ExceptT.mk (.ok y)

/-! ## What may panic -/

/-- `a + b`; `checks` says whether the build checks for overflow. -/
def usizeAdd (checks : Bool) (a b : ℕ) : Routine ε ℕ :=
  if a + b < 2 ^ 64 then pure (a + b) else if checks then abort .overflow else pure ((a + b) % 2 ^ 64)

/-- `a - b`. -/
def usizeSub (checks : Bool) (a b : ℕ) : Routine ε ℕ :=
  if b ≤ a then pure (a - b) else if checks then abort .overflow else pure (2 ^ 64 + a - b)

/-- `a * b`. -/
def usizeMul (checks : Bool) (a b : ℕ) : Routine ε ℕ :=
  if a * b < 2 ^ 64 then pure (a * b) else if checks then abort .overflow else pure (a * b % 2 ^ 64)

def InI64 (n : ℤ) : Prop := -2 ^ 63 ≤ n ∧ n < 2 ^ 63

instance : DecidablePred InI64 := fun _ => inferInstanceAs (Decidable (_ ∧ _))

/-- The number with the same 64 bits, also of `as i64`. -/
def wrapI64 (n : ℤ) : ℤ := (n + 2 ^ 63) % 2 ^ 64 - 2 ^ 63

/-- An `i64` result. -/
def i64 (checks : Bool) (n : ℤ) : Routine ε ℤ :=
  if InI64 n then pure n else if checks then abort .overflow else pure (wrapI64 n)

/-- `xs[i]`. -/
def index (xs : List α) (i : ℕ) : Routine ε α :=
  match xs[i]? with
  | some x => pure x
  | none => abort .outOfRange

/-- `&xs[start..stop]`. -/
def slice (xs : List α) (start stop : ℕ) : Routine ε (List α) :=
  if start ≤ stop ∧ stop ≤ xs.length then pure ((xs.drop start).take (stop - start)) else abort .outOfRange

section

variable {checks : Bool} {a b i start stop : ℕ} {xs : List α}

theorem lift_ok (a : α) : (lift (.ok a) : Routine ε α) = pure a := rfl

theorem usizeAdd_eq (h : a + b < 2 ^ 64) : (usizeAdd checks a b : Routine ε ℕ) = pure (a + b) := if_pos h

theorem usizeSub_eq (h : b ≤ a) : (usizeSub checks a b : Routine ε ℕ) = pure (a - b) := if_pos h

theorem usizeMul_eq (h : a * b < 2 ^ 64) : (usizeMul checks a b : Routine ε ℕ) = pure (a * b) := if_pos h

theorem i64_eq {n : ℤ} (h : InI64 n) : (i64 checks n : Routine ε ℤ) = pure n := if_pos h

theorem i64_abort {n : ℤ} (h : ¬InI64 n) : (i64 true n : Routine ε ℤ) = abort .overflow := by
  rw [i64, if_neg h, if_pos rfl]

theorem index_eq {d : α} (h : i < xs.length) : (index xs i : Routine ε α) = pure (xs.getD i d) := by
  unfold index
  rw [getElem?_eq_getElem h, getD_eq_getElem _ _ h]

theorem slice_eq (hstart : start ≤ stop) (hstop : stop ≤ xs.length) :
    (slice xs start stop : Routine ε (List α)) = pure ((xs.drop start).take (stop - start)) :=
  if_pos ⟨hstart, hstop⟩

theorem slice_length (h : start ≤ xs.length) :
    (slice xs start xs.length : Routine ε (List α)) = pure (xs.drop start) := by
  rw [slice_eq h (Nat.le_refl _), ← length_drop, take_length]

end

/-! ## Runs without a fault -/

/-- The routine comes to the outcome `y`. -/
def Runs (x : Routine ε α) (y : Except ε α) : Prop := x.run = .ok y

/-- The routine does not panic. -/
def Returns (x : Routine ε α) : Prop := ∃ y, Runs x y

namespace Runs

variable {x : Routine ε α} {y : Except ε α} {f : α → Routine ε β} {g : α → Except ε β}
  {z : Except ε β}

theorem not_abort {fault : Panic} : ¬Runs (abort fault >>= f) z := fun h => by cases h

theorem pure (a : α) : Runs (Pure.pure a : Routine ε α) (Pure.pure a) := rfl

theorem lift (y : Except ε α) : Runs (Panics.lift y) y := rfl

theorem throw (e : ε) : Runs (throw e : Routine ε α) (throw e) := rfl

theorem bind (hx : Runs x y) (hf : ∀ a, y = .ok a → Runs (f a) (g a)) : Runs (x >>= f) (y >>= g) := by
  unfold Runs at hx hf ⊢
  rw [ExceptT.run_bind, hx]
  cases y with
  | error e => rfl
  | ok a => exact hf a rfl

theorem ok_bind {a : α} (hx : Runs x (.ok a)) (hf : Runs (f a) z) : Runs (x >>= f) z :=
  bind (g := fun _ => z) hx fun _ h => Except.ok.inj h ▸ hf

theorem error_bind {e : ε} (hx : Runs x (.error e)) : Runs (x >>= f) (.error e) :=
  bind (g := fun _ => .error e) hx fun _ h => by cases h

theorem of_bind (h : Runs (x >>= f) z) : Returns x := by
  unfold Returns Runs at *
  rw [ExceptT.run_bind] at h
  cases hx : x.run with
  | error fault => rw [hx] at h; cases h
  | ok y => exact ⟨y, rfl⟩

end Runs

end Panics
