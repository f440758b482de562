/-
Bilinear groups of prime order, written additively: source groups `G₁`, `G₂` and a target `GT`
as modules over `ZMod p`, a bilinear pairing that is non-degenerate against the generator of
`G₂`, and the facts about discrete logarithms that pairing equations give.
-/
import Mathlib.Algebra.Field.ZMod
import Mathlib.Tactic.LinearCombination
import Mathlib.Tactic.Module

namespace Bilinear

/-- Linear extraction: two responses to one commitment under different challenges determine the
committed point. -/
theorem eq_of_two_responses {F M : Type} [Field F] [AddCommGroup M] [Module F M] {c c' : F} {x r r' : M}
    (hc : c ≠ c') (h : r + c • x = r' + c' • x) : x = (c - c')⁻¹ • (r' - r) := by
  have hdiff : (c - c') • x = r' - r := by
    rw [sub_smul, sub_eq_sub_iff_add_eq_add, add_comm, h, add_comm]
  rw [← hdiff, smul_smul, inv_mul_cancel₀ (sub_ne_zero.2 hc), one_smul]

/-- A pairing `G₁ × G₂ → GT` of groups of prime order `p > 2`. -/
structure Pairing (p : ℕ) [Fact p.Prime] (G₁ G₂ GT : Type) [AddCommGroup G₁] [Module (ZMod p) G₁]
    [AddCommGroup G₂] [Module (ZMod p) G₂] [AddCommGroup GT] [Module (ZMod p) GT] where
  pair : G₁ → G₂ → GT
  gen : G₂
  add_left : ∀ a b w, pair (a + b) w = pair a w + pair b w
  smul_left : ∀ (x : ZMod p) a w, pair (x • a) w = x • pair a w
  add_right : ∀ a v w, pair a (v + w) = pair a v + pair a w
  smul_right : ∀ (x : ZMod p) a w, pair a (x • w) = x • pair a w
  nondeg : ∀ a, pair a gen = 0 → a = 0
  cyclic₁ : ∀ a b : G₁, a ≠ 0 → ∃ x : ZMod p, b = x • a
  cyclic₂ : ∀ w : G₂, ∃ x : ZMod p, w = x • gen
  gen_ne : gen ≠ 0
  order : 2 < p

namespace Pairing

variable {p : ℕ} [Fact p.Prime] {G₁ G₂ GT : Type} [AddCommGroup G₁] [Module (ZMod p) G₁]
  [AddCommGroup G₂] [Module (ZMod p) G₂] [AddCommGroup GT] [Module (ZMod p) GT]
  (P : Pairing p G₁ G₂ GT)

theorem neg_left (a : G₁) (w : G₂) : P.pair (-a) w = -P.pair a w := by
  have h := P.smul_left (-1) a w
  simpa using h

theorem zero_left (w : G₂) : P.pair 0 w = 0 := by
  have h := P.smul_left 0 0 w
  simpa using h

theorem sub_left (a b : G₁) (w : G₂) : P.pair (a - b) w = P.pair a w - P.pair b w := by
  rw [sub_eq_add_neg, P.add_left, P.neg_left, ← sub_eq_add_neg]

theorem pair_gen_inj {a b : G₁} (h : P.pair a P.gen = P.pair b P.gen) : a = b := by
  have : P.pair (a - b) P.gen = 0 := by rw [P.sub_left, h, sub_self]
  exact sub_eq_zero.1 (P.nondeg _ this)

/-- A pairing equation against the key `x • gen` is multiplication by `x`. -/
theorem pair_key_iff (x : ZMod p) (a b : G₁) :
    P.pair a (x • P.gen) = P.pair b P.gen ↔ b = x • a := by
  constructor
  · intro h
    rw [P.smul_right, ← P.smul_left] at h
    exact (P.pair_gen_inj h).symm
  · rintro rfl
    rw [P.smul_right, ← P.smul_left]

theorem key_unique {a b : G₁} (ha : a ≠ 0) {v w : G₂} (hv : P.pair a v = P.pair b P.gen)
    (hw : P.pair a w = P.pair b P.gen) : v = w := by
  obtain ⟨x, rfl⟩ := P.cyclic₂ v
  obtain ⟨y, rfl⟩ := P.cyclic₂ w
  have hx := (P.pair_key_iff x a b).1 hv
  have hy := (P.pair_key_iff y a b).1 hw
  rw [smul_left_injective (ZMod p) ha (hx.symm.trans hy)]

include P in
theorem exists_other_key (w : G₂) : ∃ v : G₂, v ≠ 0 ∧ v ≠ w := by
  by_contra hall
  push Not at hall
  have h1 : P.gen = w := hall _ P.gen_ne
  have h2 : (2 : ZMod p) • P.gen = w := by
    apply hall
    intro h0
    rcases smul_eq_zero.1 h0 with h | h
    · have hdvd : p ∣ 2 := by
        have : ((2 : ℕ) : ZMod p) = 0 := by exact_mod_cast h
        exact (ZMod.natCast_eq_zero_iff 2 p).1 this
      have := Nat.le_of_dvd (by norm_num) hdvd
      have := P.order
      omega
    · exact P.gen_ne h
  have h3 : P.gen = (2 : ZMod p) • P.gen := h1.trans h2.symm
  rw [two_smul] at h3
  exact P.gen_ne (by simpa using h3)

end Pairing

end Bilinear
