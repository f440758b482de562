/-
A machine on a list of inputs, step by step: the state after the first `k` inputs, and the rule by which an invariant
that counts the inputs holds after each.
-/
import Mathlib.Data.List.Basic
import Mathlib.Order.Basic

namespace AffinidiTdk.Trace

variable {σ ι : Type*} (step : σ → ι → σ) (s : σ) (inputs : List ι)

/-- The state after the first `k` inputs. -/
def after (k : ℕ) : σ := (inputs.take k).foldl step s

variable {step s inputs}

theorem after_succ {k : ℕ} {i : ι} (hi : inputs[k]? = some i) :
    after step s inputs (k + 1) = step (after step s inputs k) i := by
  unfold after
  rw [List.take_add_one, hi, List.foldl_append]
  rfl

theorem exists_input {k : ℕ} (hk : k < inputs.length) : ∃ i, inputs[k]? = some i :=
  ⟨inputs[k], List.getElem?_eq_getElem hk⟩

theorem after_inv {Inv : ℕ → σ → Prop} (hstart : Inv 0 s)
    (hstep : ∀ k i, inputs[k]? = some i → Inv k (after step s inputs k) →
      Inv (k + 1) (step (after step s inputs k) i)) :
    ∀ k ≤ inputs.length, Inv k (after step s inputs k) := by
  intro k
  induction k with
  | zero => exact fun _ => hstart
  | succ k ih =>
    intro hk
    obtain ⟨i, hi⟩ := exists_input hk
    rw [after_succ hi]
    exact hstep k i hi (ih (Nat.le_of_succ_le hk))

/-! ## Inputs with a time -/

theorem time_le {τ : Type*} [Preorder τ] {time : ι → τ} (h : inputs.Pairwise fun a b => time a ≤ time b) {i j : ℕ}
    {a b : ι} (ha : inputs[i]? = some a) (hb : inputs[j]? = some b) (hij : i ≤ j) : time a ≤ time b := by
  rcases Nat.eq_or_lt_of_le hij with rfl | hlt
  · rw [ha, Option.some.injEq] at hb
    exact hb ▸ le_rfl
  · obtain ⟨hi, rfl⟩ := List.getElem?_eq_some_iff.1 ha
    obtain ⟨hj, rfl⟩ := List.getElem?_eq_some_iff.1 hb
    exact List.pairwise_iff_getElem.1 h i j hi hj hlt

end AffinidiTdk.Trace
