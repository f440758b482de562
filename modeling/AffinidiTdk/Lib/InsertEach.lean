/-
The loop that computes a value for each element of a list, which may fail, and inserts it into a map under the
element's key: with different keys every value is found again, and what was in the map under other keys is kept.
-/
import AffinidiTdk.Lib.Except
import AffinidiTdk.Lib.OrdMap

namespace OrdMap

open Fallible List

variable {ι κ β ε : Type} [LinearOrder κ] (key : ι → κ) (f : ι → Except ε β)

def insertEach : List ι → OrdMap κ β → Except ε (OrdMap κ β)
  | [], m => .ok m
  | x :: xs, m => do
    let v ← f x
    insertEach xs (m.insert (key x) v)

variable {key f}

theorem get?_insertEach {xs : List ι} {m m' : OrdMap κ β} (hnodup : (xs.map key).Nodup)
    (h : insertEach key f xs m = .ok m') :
    (∀ x ∈ xs, ∃ v, f x = .ok v ∧ m'.get? (key x) = some v) ∧ ∀ k ∉ xs.map key, m'.get? k = m.get? k := by
  induction xs generalizing m with
  | nil =>
    cases h
    exact ⟨fun _ hx => absurd hx not_mem_nil, fun _ _ => rfl⟩
  | cons x xs ih =>
    obtain ⟨v, hv, h⟩ := bind_eq_ok_iff.1 h
    rw [map_cons, nodup_cons] at hnodup
    obtain ⟨hmem, hother⟩ := ih hnodup.2 h
    constructor
    · intro y hy
      rcases mem_cons.1 hy with rfl | hy
      · exact ⟨v, hv, by rw [hother _ hnodup.1, get?_insert, if_pos rfl]⟩
      · exact hmem y hy
    · intro k hk
      rw [map_cons, mem_cons, not_or] at hk
      rw [hother k hk.2, get?_insert, if_neg hk.1]

theorem exists_insertEach {xs : List ι} (h : ∀ x ∈ xs, ∃ v, f x = .ok v) (m : OrdMap κ β) :
    ∃ m', insertEach key f xs m = .ok m' := by
  induction xs generalizing m with
  | nil => exact ⟨m, rfl⟩
  | cons x xs ih =>
    obtain ⟨⟨v, hv⟩, hrest⟩ := forall_mem_cons.1 h
    obtain ⟨m', hm'⟩ := ih hrest (m.insert (key x) v)
    exact ⟨m', bind_eq_ok_iff.2 ⟨v, hv, hm'⟩⟩

theorem keys_nodup (m : OrdMap κ β) : m.keys.Nodup := by
  rw [List.Nodup, keys, pairwise_map]
  exact m.sorted.imp fun h => h.ne

end OrdMap
