/-
Ordered maps: association lists with strictly increasing keys, as a B-tree map iterates them.
The order of the entries is part of the value, so reads of a prefix or of everything past a key
are list operations.
-/
import Mathlib.Algebra.GroupWithZero.Nat
import Mathlib.Data.List.Nodup
import Mathlib.Order.Lattice

/-- A finite map that lists its entries in the order of its keys. -/
structure OrdMap (α β : Type) [LinearOrder α] where
  entries : List (α × β)
  sorted : entries.Pairwise fun a b => a.1 < b.1

namespace OrdMap

open List

variable {α β : Type} [LinearOrder α]

/-! ## Operations -/

def empty : OrdMap α β := ⟨[], .nil⟩

def get? (m : OrdMap α β) (k : α) : Option β := (m.entries.find? fun e => e.1 = k).map Prod.snd

def keys (m : OrdMap α β) : List α := m.entries.map Prod.fst

def values (m : OrdMap α β) : List β := m.entries.map Prod.snd

def length (m : OrdMap α β) : ℕ := m.entries.length

/-- Write `v` at `k`, keeping the order. -/
def insertEntry (k : α) (v : β) : List (α × β) → List (α × β)
  | [] => [(k, v)]
  | e :: rest =>
    if k < e.1 then (k, v) :: e :: rest
    else if k = e.1 then (k, v) :: rest
    else e :: insertEntry k v rest

variable {k : α} {v : β} {l : List (α × β)} {e : α × β}

theorem mem_insertEntry (h : e ∈ insertEntry k v l) : e = (k, v) ∨ e ∈ l := by
  induction l with
  | nil =>
    left
    simpa [insertEntry] using h
  | cons x rest ih =>
    simp only [insertEntry] at h
    split at h
    · simpa using h
    · split at h
      · rcases mem_cons.1 h with h | h
        · exact .inl h
        · exact .inr (mem_cons_of_mem _ h)
      · rcases mem_cons.1 h with h | h
        · exact .inr (h ▸ mem_cons_self)
        · rcases ih h with h | h
          · exact .inl h
          · exact .inr (mem_cons_of_mem _ h)

theorem insertEntry_sorted (k : α) (v : β) (hl : l.Pairwise fun a b => a.1 < b.1) :
    (insertEntry k v l).Pairwise fun a b => a.1 < b.1 := by
  induction l with
  | nil => simp [insertEntry]
  | cons x rest ih =>
    obtain ⟨hx, hrest⟩ := pairwise_cons.1 hl
    simp only [insertEntry]
    split
    · rename_i hlt
      refine pairwise_cons.2 ⟨?_, hl⟩
      intro e he
      rcases mem_cons.1 he with rfl | he
      · exact hlt
      · exact lt_trans hlt (hx e he)
    · split
      · rename_i heq
        exact pairwise_cons.2 ⟨fun e he => heq ▸ hx e he, hrest⟩
      · rename_i hnlt hne
        refine pairwise_cons.2 ⟨?_, ih hrest⟩
        intro e he
        rcases mem_insertEntry he with rfl | he
        · exact lt_of_le_of_ne (not_lt.1 hnlt) (Ne.symm hne)
        · exact hx e he

def insert (m : OrdMap α β) (k : α) (v : β) : OrdMap α β :=
  ⟨insertEntry k v m.entries, insertEntry_sorted k v m.sorted⟩

def filter (m : OrdMap α β) (keep : α → Bool) : OrdMap α β :=
  ⟨m.entries.filter fun e => keep e.1, m.sorted.filter _⟩

def erase (m : OrdMap α β) (k : α) : OrdMap α β := m.filter fun a => a ≠ k

/-- Drop the first `n` entries, those with the smallest keys. -/
def dropFirst (m : OrdMap α β) (n : ℕ) : OrdMap α β := ⟨m.entries.drop n, m.sorted.drop⟩

instance : Inhabited (OrdMap α β) := ⟨empty⟩

/-! ## Entries -/

variable {m : OrdMap α β}

theorem entries_insert_of_lt (h : ∀ e ∈ m.entries, e.1 < k) (v : β) :
    (m.insert k v).entries = m.entries ++ [(k, v)] := by
  obtain ⟨entries, sorted⟩ := m
  change insertEntry k v entries = _
  simp only at h
  induction entries with
  | nil => rfl
  | cons x rest ih =>
    have hx : x.1 < k := h x mem_cons_self
    have hrest : ∀ e ∈ rest, e.1 < k := fun e he => h e (mem_cons_of_mem _ he)
    rw [insertEntry, if_neg (not_lt.2 hx.le), if_neg hx.ne', ih (pairwise_cons.1 sorted).2 hrest]
    rfl

theorem value_unique {v' : β} (h : (k, v) ∈ m.entries) (h' : (k, v') ∈ m.entries) : v = v' := by
  have hnodup : m.keys.Nodup := pairwise_map.2 (m.sorted.imp fun h => h.ne)
  have heq : (k, v) = (k, v') := inj_on_of_nodup_map hnodup h h' rfl
  exact (Prod.ext_iff.1 heq).2

/-- What a key gives is what is stored under it. -/
theorem get?_eq_some_iff : m.get? k = some v ↔ (k, v) ∈ m.entries := by
  simp only [get?, Option.map_eq_some_iff]
  constructor
  · rintro ⟨⟨a, b⟩, hfind, rfl⟩
    obtain rfl : a = k := by simpa using find?_some hfind
    exact mem_of_find?_eq_some hfind
  · intro hmem
    have hsome : (m.entries.find? fun e => e.1 = k).isSome := by
      rw [find?_isSome]
      exact ⟨(k, v), hmem, by simp⟩
    obtain ⟨⟨a, b⟩, hfind⟩ := Option.isSome_iff_exists.1 hsome
    obtain rfl : a = k := by simpa using find?_some hfind
    exact ⟨(a, b), hfind, value_unique (mem_of_find?_eq_some hfind) hmem⟩

theorem mem_insert : e ∈ (m.insert k v).entries ↔ e = (k, v) ∨ e ∈ m.entries ∧ e.1 ≠ k := by
  obtain ⟨entries, sorted⟩ := m
  change e ∈ insertEntry k v entries ↔ _
  induction entries with
  | nil => simp [insertEntry]
  | cons x rest ih =>
    obtain ⟨hx, hrest⟩ := pairwise_cons.1 sorted
    have ih := ih hrest
    simp only at ih
    rw [insertEntry]
    split
    · -- every old key is past the new one
      rename_i hlt
      have hne : ∀ y ∈ x :: rest, y.1 ≠ k := by
        intro y hy
        rcases mem_cons.1 hy with rfl | hy
        · exact hlt.ne'
        · exact (hlt.trans (hx y hy)).ne'
      rw [mem_cons]
      exact ⟨fun h => h.imp_right fun hy => ⟨hy, hne e hy⟩, fun h => h.imp_right And.left⟩
    · split
      · rename_i heq
        have hne : ∀ y ∈ rest, y.1 ≠ k := fun y hy => heq ▸ (hx y hy).ne'
        rw [mem_cons, mem_cons]
        constructor
        · exact fun h => h.imp_right fun hy => ⟨.inr hy, hne e hy⟩
        · rintro (h | ⟨rfl | h, hk⟩)
          · exact .inl h
          · exact absurd heq.symm hk
          · exact .inr h
      · rename_i _ hne
        rw [mem_cons, mem_cons, ih]
        constructor
        · rintro (rfl | h | ⟨h, hk⟩)
          · exact .inr ⟨.inl rfl, Ne.symm hne⟩
          · exact .inl h
          · exact .inr ⟨.inr h, hk⟩
        · rintro (h | ⟨rfl | h, hk⟩)
          · exact .inr (.inl h)
          · exact .inl rfl
          · exact .inr (.inr ⟨h, hk⟩)

/-- An insertion changes one key. -/
theorem get?_insert (m : OrdMap α β) (k a : α) (v : β) :
    (m.insert k v).get? a = if a = k then some v else m.get? a := by
  ext w
  rw [get?_eq_some_iff, mem_insert]
  by_cases ha : a = k
  · subst ha
    simp [eq_comm]
  · simp [ha, get?_eq_some_iff]

theorem insert_eq_self_iff : m.insert k v = m ↔ m.get? k = some v := by
  constructor
  · intro h
    rw [← h, get?_insert, if_pos rfl]
  · intro h
    have hmem := get?_eq_some_iff.1 h
    obtain ⟨entries, sorted⟩ := m
    simp only [insert, OrdMap.mk.injEq]
    simp only at hmem
    clear h
    induction entries with
    | nil => cases hmem
    | cons x rest ih =>
      obtain ⟨hx, hrest⟩ := pairwise_cons.1 sorted
      rcases mem_cons.1 hmem with rfl | hmem
      · simp [insertEntry]
      · have hlt := hx _ hmem
        rw [insertEntry, if_neg (not_lt.2 hlt.le), if_neg hlt.ne', ih hrest hmem]

theorem entries_nodup (m : OrdMap α β) : m.entries.Nodup := by
  refine m.sorted.imp ?_
  rintro a b hlt rfl
  exact lt_irrefl a.1 hlt

/-- Maps that answer alike are equal. -/
theorem ext_get? {m' : OrdMap α β} (h : ∀ k, m.get? k = m'.get? k) : m = m' := by
  have hmem : ∀ e, e ∈ m.entries ↔ e ∈ m'.entries := by
    rintro ⟨k, v⟩
    rw [← get?_eq_some_iff, ← get?_eq_some_iff, h]
  obtain ⟨entries, sorted⟩ := m
  obtain ⟨entries', sorted'⟩ := m'
  have hperm := (perm_ext_iff_of_nodup (entries_nodup ⟨entries, sorted⟩)
    (entries_nodup ⟨entries', sorted'⟩)).2 hmem
  obtain rfl : entries = entries' :=
    hperm.eq_of_pairwise (fun a b _ _ hab hba => absurd (lt_trans hab hba) (lt_irrefl a.1)) sorted sorted'
  rfl

theorem mem_keys : k ∈ m.keys ↔ ∃ v, (k, v) ∈ m.entries := by
  simp [keys]

theorem mem_keys_insert {a : α} : a ∈ (m.insert k v).keys ↔ a = k ∨ a ∈ m.keys := by
  simp only [mem_keys, mem_insert]
  constructor
  · rintro ⟨w, h | ⟨h, -⟩⟩
    · exact .inl (Prod.ext_iff.1 h).1
    · exact .inr ⟨w, h⟩
  · rintro (rfl | ⟨w, h⟩)
    · exact ⟨v, .inl rfl⟩
    · rcases eq_or_ne a k with rfl | hne
      · exact ⟨v, .inl rfl⟩
      · exact ⟨w, .inr ⟨h, hne⟩⟩

theorem mem_erase : e ∈ (m.erase k).entries ↔ e ∈ m.entries ∧ e.1 ≠ k := by
  simp [erase, filter]

/-- So does a removal. -/
theorem get?_erase (m : OrdMap α β) (k a : α) : (m.erase k).get? a = if a = k then none else m.get? a := by
  ext w
  rw [get?_eq_some_iff, mem_erase]
  by_cases ha : a = k
  · simp [ha]
  · simp [ha, get?_eq_some_iff]

theorem perm_cons_erase (h : (k, v) ∈ m.entries) : m.entries.Perm ((k, v) :: (m.erase k).entries) := by
  obtain ⟨entries, sorted⟩ := m
  change entries.Perm ((k, v) :: entries.filter fun e => decide (e.1 ≠ k))
  simp only at h
  induction entries with
  | nil => cases h
  | cons x rest ih =>
    obtain ⟨hx, hrest⟩ := pairwise_cons.1 sorted
    rcases mem_cons.1 h with rfl | h
    · have hkept : rest.filter (fun e => decide (e.1 ≠ k)) = rest :=
        filter_eq_self.2 fun e he => decide_eq_true (hx e he).ne'
      rw [filter_cons_of_neg (by simp), hkept]
    · rw [filter_cons_of_pos (by simpa using (hx _ h).ne)]
      exact ((ih hrest h).cons x).trans (List.Perm.swap _ _ _)

/-- The sum of a size over the values. -/
def total (m : OrdMap α β) (f : β → ℕ) : ℕ := (m.values.map f).sum

theorem total_erase (h : (k, v) ∈ m.entries) (f : β → ℕ) : (m.erase k).total f = m.total f - f v := by
  have hperm := ((perm_cons_erase h).map fun e => f e.2).sum_nat
  simp only [total, values, map_map, Function.comp_def, map_cons, sum_cons] at hperm ⊢
  omega

theorem length_erase (h : (k, v) ∈ m.entries) : (m.erase k).length = m.length - 1 := by
  have hperm := (perm_cons_erase h).length_eq
  simp only [length_cons, length] at hperm ⊢
  omega

theorem total_insert_of_lt (h : ∀ e ∈ m.entries, e.1 < k) (v : β) (f : β → ℕ) :
    (m.insert k v).total f = m.total f + f v := by
  simp [total, values, entries_insert_of_lt h]

theorem length_insert_of_lt (h : ∀ e ∈ m.entries, e.1 < k) (v : β) : (m.insert k v).length = m.length + 1 := by
  simp [length, entries_insert_of_lt h]

theorem perm_insert (m : OrdMap α β) (k : α) (v : β) :
    (m.insert k v).entries.Perm ((k, v) :: (m.erase k).entries) := by
  have hnew : (k, v) ∉ (m.erase k).entries := fun h => (mem_erase.1 h).2 rfl
  refine (perm_ext_iff_of_nodup (entries_nodup _) (nodup_cons.2 ⟨hnew, entries_nodup _⟩)).2 fun e => ?_
  rw [mem_insert, mem_cons, mem_erase]

theorem erase_eq_of_get?_none (h : m.get? k = none) : m.erase k = m := by
  refine ext_get? fun a => ?_
  rw [get?_erase]
  by_cases ha : a = k
  · rw [if_pos ha, ha, h]
  · rw [if_neg ha]

theorem total_insert (m : OrdMap α β) (k : α) (v : β) (f : β → ℕ) :
    (m.insert k v).total f = (m.erase k).total f + f v := by
  have hperm := ((perm_insert m k v).map fun e => f e.2).sum_nat
  simp only [total, values, map_map, Function.comp_def, map_cons, sum_cons] at hperm ⊢
  omega

theorem length_insert (m : OrdMap α β) (k : α) (v : β) : (m.insert k v).length = (m.erase k).length + 1 :=
  (perm_insert m k v).length_eq

theorem le_total (h : (k, v) ∈ m.entries) (f : β → ℕ) : f v ≤ m.total f := by
  have hperm := ((perm_cons_erase h).map fun e => f e.2).sum_nat
  simp only [total, values, map_map, Function.comp_def, map_cons, sum_cons] at hperm ⊢
  omega

theorem length_pos (h : e ∈ m.entries) : 0 < m.length := length_pos_of_mem h

theorem mem_foldl_erase {ks : List α} :
    e ∈ (ks.foldl (fun m k => m.erase k) m).entries ↔ e ∈ m.entries ∧ e.1 ∉ ks := by
  induction ks generalizing m with
  | nil => simp
  | cons k ks ih => rw [foldl_cons, ih, mem_erase, mem_cons, not_or, and_assoc]

theorem dropFirst_zero (m : OrdMap α β) : m.dropFirst 0 = m := rfl

end OrdMap
