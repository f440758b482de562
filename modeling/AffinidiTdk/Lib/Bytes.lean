/-
Byte strings as keys of an ordered store: big-endian numbers of a fixed width compare as the
numbers do, and keys that start with different prefixes of one length never mix.
-/
import Mathlib.Data.List.Induction
import Mathlib.Data.List.Lex
import Mathlib.Tactic.Ring

namespace Bytes

open List

/-! ## Big-endian numbers -/

/-- The last `w` bytes of a number, the most significant first. -/
def beBytes : ℕ → ℕ → List ℕ
  | 0, _ => []
  | w + 1, n => n / 256 ^ w % 256 :: beBytes w (n % 256 ^ w)

/-- The number a big-endian byte string spells. -/
def ofBeBytes (bytes : List ℕ) : ℕ := bytes.foldl (fun n b => n * 256 + b) 0

theorem length_beBytes (w n : ℕ) : (beBytes w n).length = w := by
  induction w generalizing n with
  | zero => rfl
  | succ w ih => simp [beBytes, ih]

theorem lt_of_mem_beBytes {w n b : ℕ} (h : b ∈ beBytes w n) : b < 256 := by
  induction w generalizing n with
  | zero => cases h
  | succ w ih =>
    rw [beBytes, mem_cons] at h
    rcases h with rfl | h
    · exact Nat.mod_lt _ (by decide)
    · exact ih h

theorem beBytes_lt {w m n : ℕ} (hmn : m < n) (hn : n < 256 ^ w) : beBytes w m < beBytes w n := by
  induction w generalizing m n with
  | zero =>
    rw [pow_zero] at hn
    omega
  | succ w ih =>
    have hpos : 0 < 256 ^ w := Nat.pow_pos (by decide)
    rw [pow_succ] at hn
    have hhigh : n / 256 ^ w < 256 := Nat.div_lt_of_lt_mul hn
    have hle : m / 256 ^ w ≤ n / 256 ^ w := Nat.div_le_div_right hmn.le
    rw [beBytes, beBytes, Nat.mod_eq_of_lt hhigh, Nat.mod_eq_of_lt (hle.trans_lt hhigh), cons_lt_cons_iff]
    rcases hle.lt_or_eq with hlt | heq
    · exact .inl hlt
    · -- the first bytes agree, so the rest decides
      refine .inr ⟨heq, ih ?_ (Nat.mod_lt _ hpos)⟩
      have hm := Nat.div_add_mod m (256 ^ w)
      have hn' := Nat.div_add_mod n (256 ^ w)
      rw [heq] at hm
      omega

theorem foldl_beBytes (w n acc : ℕ) (hn : n < 256 ^ w) :
    (beBytes w n).foldl (fun n b => n * 256 + b) acc = acc * 256 ^ w + n := by
  induction w generalizing n acc with
  | zero =>
    rw [pow_zero] at hn
    simp [beBytes]
    omega
  | succ w ih =>
    have hpos : 0 < 256 ^ w := Nat.pow_pos (by decide)
    have hhigh : n / 256 ^ w < 256 := Nat.div_lt_of_lt_mul (by rwa [pow_succ] at hn)
    rw [beBytes, foldl_cons, ih _ _ (Nat.mod_lt _ hpos), Nat.mod_eq_of_lt hhigh]
    have hn' := Nat.div_add_mod n (256 ^ w)
    calc (acc * 256 + n / 256 ^ w) * 256 ^ w + n % 256 ^ w
        = acc * (256 ^ w * 256) + (256 ^ w * (n / 256 ^ w) + n % 256 ^ w) := by ring
      _ = acc * 256 ^ (w + 1) + n := by rw [hn', pow_succ]

theorem ofBeBytes_beBytes {w n : ℕ} (hn : n < 256 ^ w) : ofBeBytes (beBytes w n) = n := by
  rw [ofBeBytes, foldl_beBytes w n 0 hn, Nat.zero_mul, Nat.zero_add]

theorem ofBeBytes_lt {bytes : List ℕ} (h : ∀ b ∈ bytes, b < 256) : ofBeBytes bytes < 256 ^ bytes.length := by
  induction bytes using List.reverseRecOn with
  | nil => decide
  | append_singleton bytes b ih =>
    have hrest := ih fun c hc => h c (mem_append_left _ hc)
    have hb := h b (mem_append_right _ mem_cons_self)
    rw [ofBeBytes] at hrest
    rw [ofBeBytes, foldl_append, length_append, pow_add]
    show _ * 256 + b < _ * 256
    omega

theorem ofBeBytes_map_toNat {w n : ℕ} (hn : n < 256 ^ w) :
    ofBeBytes (((beBytes w n).map UInt8.ofNat).map UInt8.toNat) = n := by
  have hbytes : ((beBytes w n).map UInt8.ofNat).map UInt8.toNat = beBytes w n := by
    rw [map_map]
    refine (map_congr_left fun b hb => ?_).trans (map_id _)
    exact UInt8.toNat_ofNat_of_lt' (lt_of_mem_beBytes hb)
  rw [hbytes, ofBeBytes_beBytes hn]

/-! ## Prefixes -/

theorem append_lt_append_iff {p x y : List ℕ} : p ++ x < p ++ y ↔ x < y := by
  induction p with
  | nil => rfl
  | cons b p ih => rw [cons_append, cons_append, cons_lt_cons_iff, ih]; simp

theorem append_lt_append_of_lt {p q : List ℕ} (hlen : p.length = q.length) (hpq : p < q) (x y : List ℕ) :
    p ++ x < q ++ y := by
  induction p generalizing q with
  | nil =>
    obtain rfl : q = [] := eq_nil_of_length_eq_zero hlen.symm
    exact absurd hpq (lt_irrefl _)
  | cons b p ih =>
    cases q with
    | nil => cases hlen
    | cons c q =>
      rw [cons_append, cons_append, cons_lt_cons_iff]
      rcases cons_lt_cons_iff.1 hpq with hbc | ⟨hbc, hpq⟩
      · exact .inl hbc
      · exact .inr ⟨hbc, ih (Nat.succ.inj hlen) hpq⟩

/-! ## Texts -/

/-- The UTF-8 bytes of a text. -/
def ofString (s : String) : List ℕ := s.toByteArray.data.toList.map UInt8.toNat

theorem ofString_injective : Function.Injective ofString := by
  intro s t h
  have hlist : s.toByteArray.data.toList = t.toByteArray.data.toList :=
    (map_injective_iff.2 fun _ _ => UInt8.toNat_inj.1) h
  have hdata : s.toByteArray.data = t.toByteArray.data := Array.toList_inj.1 hlist
  exact String.toByteArray_inj.1 (ByteArray.ext hdata)

end Bytes
