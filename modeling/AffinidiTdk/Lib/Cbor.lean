/-
CBOR data items, and sequences of them up to the nulls at their end: positional formats leave an optional
field at the end out, or write it as null.
-/
import Mathlib.Algebra.Order.Ring.Int
import Mathlib.Data.List.Basic

namespace Cbor

open List

/-! ## Data items -/

/-- The values of CBOR. -/
inductive Value
  | integer (i : ℤ)
  | bytes (b : List UInt8)
  | float (bits : UInt64)
  | text (s : String)
  | bool (b : Bool)
  | null
  | tag (tag : ℕ) (inner : Value)
  | array (items : List Value)
  | map (entries : List (Value × Value))

/-- The item at a place of a positional format, null where the format ends before it. -/
def at_ (items : List Value) (i : ℕ) : Value := items[i]?.getD .null

@[simp] theorem at_nil (i : ℕ) : at_ [] i = .null := rfl

@[simp] theorem at_cons_zero (item : Value) (items : List Value) : at_ (item :: items) 0 = item := rfl

@[simp] theorem at_cons_succ (item : Value) (items : List Value) (i : ℕ) : at_ (item :: items) (i + 1) =
  at_ items i := rfl

theorem at_append_null (items : List Value) (n i : ℕ) : at_ (items ++ List.replicate n .null) i = at_ items i := by
  rcases lt_or_ge i items.length with h | h
  · rw [at_, getElem?_append_left h, at_]
  · have hrest : (List.replicate n Value.null)[i - items.length]?.getD .null = .null := by
      rw [getElem?_replicate]
      split_ifs <;> rfl
    rw [at_, getElem?_append_right h, hrest, at_, getElem?_eq_none h]
    rfl

/-! ## Up to the nulls at the end -/

/-- The sequences are the same but for nulls at the end of one of them. -/
def SameUpToNulls (xs ys : List Value) : Prop :=
  ∃ items m n, xs = items ++ List.replicate m .null ∧ ys = items ++ List.replicate n .null

theorem sameUpToNulls_iff {xs ys : List Value} : SameUpToNulls xs ys ↔ ∀ i, at_ xs i = at_ ys i := by
  constructor
  · rintro ⟨items, m, n, rfl, rfl⟩ i
    rw [at_append_null, at_append_null]
  · intro h
    -- the longer one goes on with nulls
    have hlonger : ∀ {xs ys : List Value}, xs.length ≤ ys.length → (∀ i, at_ xs i = at_ ys i) →
        ys = xs ++ List.replicate (ys.length - xs.length) .null := by
      intro xs ys hlength h
      refine ext_getElem? fun i => ?_
      have hi := h i
      rcases lt_or_ge i xs.length with hxs | hxs
      · rw [getElem?_append_left hxs]
        rw [at_, at_, getElem?_eq_getElem hxs, getElem?_eq_getElem (hxs.trans_le hlength)] at hi
        rw [getElem?_eq_getElem hxs, getElem?_eq_getElem (hxs.trans_le hlength)]
        exact congrArg some hi.symm
      · rw [getElem?_append_right hxs, getElem?_replicate]
        rcases lt_or_ge i ys.length with hys | hys
        · rw [if_pos (by omega), getElem?_eq_getElem hys]
          rw [at_, at_, getElem?_eq_none hxs, getElem?_eq_getElem hys] at hi
          exact congrArg some hi.symm
        · rw [if_neg (by omega), getElem?_eq_none hys]
    rcases le_total xs.length ys.length with hlength | hlength
    · exact ⟨xs, 0, ys.length - xs.length, (append_nil _).symm, hlonger hlength h⟩
    · exact ⟨ys, xs.length - ys.length, 0, hlonger hlength fun i => (h i).symm, (append_nil _).symm⟩

/-- No null at the end. -/
def Trimmed (items : List Value) : Prop := items.getLast? ≠ some .null

theorem SameUpToNulls.eq {xs ys : List Value} (h : SameUpToNulls xs ys) (hxs : Trimmed xs) (hys : Trimmed ys) :
    xs = ys := by
  obtain ⟨items, m, n, rfl, rfl⟩ := h
  have hzero {k : ℕ} (htrimmed : Trimmed (items ++ List.replicate k .null)) : k = 0 := by
    cases k with
    | zero => rfl
    | succ k =>
      rw [Trimmed, replicate_succ', ← append_assoc, getLast?_concat] at htrimmed
      exact absurd rfl htrimmed
  rw [hzero hxs, hzero hys]

end Cbor
