/-
Bit strings in bytes, the first bit of a byte its most significant one: reading a bit, writing one,
and counting those that are set.
-/
import Mathlib.Algebra.GroupWithZero.Nat
import Mathlib.Data.List.Count
import Mathlib.Data.List.GetD

namespace Bitstring

open List

/-! ## Bits of a byte -/

/-- Bit `k` of a byte, counted from the least significant. -/
def bit (b : UInt8) (k : ℕ) : Bool := (b >>> UInt8.ofNat k) &&& 1 == 1

def countOnes (b : UInt8) : ℕ := (List.range 8).countP (bit b)

theorem bit_eq_getLsbD {k : ℕ} (hk : k < 8) (b : UInt8) : bit b k = b.toBitVec.getLsbD k := by
  have hmod : (UInt8.ofNat k).toNat % 8 = k := by
    rw [UInt8.toNat_ofNat']
    omega
  rw [Bool.eq_iff_iff, bit, beq_iff_eq, ← UInt8.toNat_inj, UInt8.toNat_and, UInt8.toNat_shiftRight,
    ← BitVec.testBit_toNat, Nat.testBit, hmod, Nat.and_comm]
  simp

theorem bit_zero (k : ℕ) : bit 0 k = false := by simp [bit]

theorem getLsbD_one_shiftLeft {j k : ℕ} (hj : j < 8) (hk : k < 8) :
    ((1 : UInt8) <<< UInt8.ofNat k).toBitVec.getLsbD j = decide (j = k) := by
  rw [Bool.eq_iff_iff]
  simp [hj, Nat.mod_eq_of_lt hk]
  omega

theorem bit_or {j k : ℕ} (hj : j < 8) (hk : k < 8) (b : UInt8) :
    bit (b ||| 1 <<< UInt8.ofNat k) j = (decide (j = k) || bit b j) := by
  rw [bit_eq_getLsbD hj, bit_eq_getLsbD hj, UInt8.toBitVec_or, BitVec.getLsbD_or, getLsbD_one_shiftLeft hj hk,
    Bool.or_comm]

theorem bit_and_not {j k : ℕ} (hj : j < 8) (hk : k < 8) (b : UInt8) :
    bit (b &&& ~~~(1 <<< UInt8.ofNat k)) j = (!decide (j = k) && bit b j) := by
  rw [bit_eq_getLsbD hj, bit_eq_getLsbD hj, UInt8.toBitVec_and, UInt8.toBitVec_not, BitVec.getLsbD_and,
    BitVec.getLsbD_not, getLsbD_one_shiftLeft hj hk, Bool.and_comm, decide_eq_true hj, Bool.true_and]

/-! ## Bits of a string -/

def get (bits : List UInt8) (i : ℕ) : Bool := bit (bits.getD (i / 8) 0) (7 - i % 8)

def put (bits : List UInt8) (i : ℕ) (b : Bool) : List UInt8 :=
  bits.modify (i / 8) fun byte =>
    if b then byte ||| 1 <<< UInt8.ofNat (7 - i % 8) else byte &&& ~~~(1 <<< UInt8.ofNat (7 - i % 8))

variable {bits : List UInt8} {i j : ℕ} {b : Bool}

theorem length_put : (put bits i b).length = bits.length := length_modify ..

theorem get_put (hi : i < 8 * bits.length) : get (put bits i b) j = if j = i then b else get bits j := by
  have hlt : i / 8 < bits.length := Nat.div_lt_of_lt_mul hi
  rw [get, put]
  by_cases hbyte : j / 8 = i / 8
  · have hj : 7 - j % 8 < 8 := by omega
    have hk : 7 - i % 8 < 8 := by omega
    have hsame : (7 - j % 8 = 7 - i % 8) ↔ j = i := by omega
    rw [hbyte, getD_eq_getElem?_getD, getElem?_modify_eq, getElem?_eq_getElem hlt]
    change bit (if b then _ else _) _ = _
    have hget : get bits j = bit bits[i / 8] (7 - j % 8) := by
      rw [get, hbyte, getD_eq_getElem?_getD, getElem?_eq_getElem hlt, Option.getD_some]
    cases b with
    | true =>
      rw [if_pos rfl, bit_or hj hk, hget]
      split_ifs with h
      · simp [h]
      · simp [hsame, h]
    | false =>
      rw [if_neg Bool.false_ne_true, bit_and_not hj hk, hget]
      split_ifs with h
      · simp [h]
      · simp [hsame, h]
  · have hne : j ≠ i := fun h => hbyte (by rw [h])
    rw [if_neg hne, get, getD_eq_getElem?_getD, getElem?_modify_ne _ _ (Ne.symm hbyte), ← getD_eq_getElem?_getD]

theorem get_zeros (n i : ℕ) : get (List.replicate n 0) i = false := by
  rw [get, getD_eq_getElem?_getD, getElem?_replicate]
  split_ifs
  · exact bit_zero _
  · exact bit_zero _

/-! ## Counting -/

/-- The sum of `count_ones` over the bytes. -/
def countSet (bits : List UInt8) : ℕ := (bits.map countOnes).sum

theorem get_cons_lt {byte : UInt8} (h : i < 8) : get (byte :: bits) i = bit byte (7 - i) := by
  rw [get, Nat.div_eq_of_lt h, Nat.mod_eq_of_lt h, getD_cons_zero]

theorem get_cons_add (byte : UInt8) (bits : List UInt8) (i : ℕ) : get (byte :: bits) (8 + i) = get bits i := by
  rw [get, get, Nat.add_div_left i (by omega), Nat.add_mod_left, getD_cons_succ]

theorem countOnes_eq (byte : UInt8) : countOnes byte = (List.range 8).countP fun i => bit byte (7 - i) := by
  have hrev : ((List.range 8).map fun i => 7 - i).Perm (List.range 8) := by decide
  rw [countOnes, ← hrev.countP_eq, countP_map]
  rfl

theorem countSet_eq (bits : List UInt8) : countSet bits = (List.range (8 * bits.length)).countP (get bits) := by
  induction bits with
  | nil => rfl
  | cons byte bits ih =>
    have hfirst : (List.range 8).countP (get (byte :: bits)) = countOnes byte := by
      rw [countOnes_eq]
      exact countP_congr fun i hi => by rw [get_cons_lt (mem_range.1 hi)]
    have hrest : ((List.range (8 * bits.length)).map (8 + ·)).countP (get (byte :: bits)) = countSet bits := by
      rw [ih, countP_map]
      exact countP_congr fun i _ => by rw [Function.comp_apply, get_cons_add]
    rw [length_cons, Nat.mul_succ, Nat.add_comm, range_add, countP_append, hfirst, hrest]
    rfl

theorem countSet_eq_of_clear {size : ℕ} (hsize : size ≤ 8 * bits.length)
    (hclear : ∀ i, size ≤ i → get bits i = false) : countSet bits = (List.range size).countP (get bits) := by
  obtain ⟨rest, hrest⟩ := Nat.exists_eq_add_of_le hsize
  have hnone : ((List.range rest).map (size + ·)).countP (get bits) = 0 := by
    rw [countP_eq_zero]
    intro i hi
    obtain ⟨j, -, rfl⟩ := mem_map.1 hi
    simp [hclear (size + j) (Nat.le_add_right size j)]
  rw [countSet_eq, hrest, range_add, countP_append, hnone, Nat.add_zero]

end Bitstring
