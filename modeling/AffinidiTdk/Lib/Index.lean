/-
Secondary indexes: a primary map of records, and for each owner an ordered stream of entries that
point back into it. The index is right when its entries are exactly those of the records that name
a place in it; inserting and erasing a record keep it so.
-/
import AffinidiTdk.Lib.OrdMap

section

variable {K R D S E : Type} [LinearOrder S]

/-- The streams hold one entry for each record that has a place, and nothing else. -/
def Indexes (primary : K → Option R) (place : R → Option (D × S)) (entry : K → R → E) (index : D → OrdMap S E) :
    Prop :=
  ∀ d s e, (s, e) ∈ (index d).entries ↔ ∃ k r, primary k = some r ∧ place r = some (d, s) ∧ entry k r = e

namespace Indexes

open Function Option OrdMap

variable {primary : K → Option R} {place : R → Option (D × S)} {entry : K → R → E}
  {index : D → OrdMap S E} {k : K} {r : R} {d : D} {s : S}

theorem mem (h : Indexes primary place entry index) (hk : primary k = some r) (hplace : place r = some (d, s)) :
    (s, entry k r) ∈ (index d).entries := (h d s _).2 ⟨k, r, hk, hplace, rfl⟩

variable [DecidableEq K]

theorem insert_none (h : Indexes primary place entry index) (hk : primary k = none) (hplace : place r = none) :
    Indexes (update primary k (some r)) place entry index := by
  intro d' s' e
  rw [h d' s' e]
  constructor
  · rintro ⟨k', r', hk', hrest⟩
    have hne : k' ≠ k := by
      rintro rfl
      simp [hk] at hk'
    exact ⟨k', r', by rwa [update_of_ne hne], hrest⟩
  · rintro ⟨k', r', hk', hplace', rfl⟩
    by_cases hkk : k' = k
    · subst hkk
      rw [update_self] at hk'
      cases hk'
      simp [hplace] at hplace'
    · exact ⟨k', r', by rwa [update_of_ne hkk] at hk', hplace', rfl⟩

theorem erase_none (h : Indexes primary place entry index) (hk : primary k = some r) (hplace : place r = none) :
    Indexes (update primary k none) place entry index := by
  intro d' s' e
  rw [h d' s' e]
  constructor
  · rintro ⟨k', r', hk', hplace', rfl⟩
    have hne : k' ≠ k := by
      rintro rfl
      cases hk.symm.trans hk'
      simp [hplace] at hplace'
    exact ⟨k', r', by rwa [update_of_ne hne], hplace', rfl⟩
  · rintro ⟨k', r', hk', hrest⟩
    have hne : k' ≠ k := by
      rintro rfl
      simp at hk'
    exact ⟨k', r', by rwa [update_of_ne hne] at hk', hrest⟩

variable [DecidableEq D]

theorem insert (h : Indexes primary place entry index) (hk : primary k = none) (hplace : place r = some (d, s))
    (hfresh : ∀ e ∈ (index d).entries, e.1 ≠ s) :
    Indexes (update primary k (some r)) place entry
      (update index d ((index d).insert s (entry k r))) := by
  have hold : ∀ k' r', primary k' = some r' → k' ≠ k := by
    rintro k' r' hk' rfl
    simp [hk] at hk'
  intro d' s' e
  constructor
  · intro hmem
    by_cases hd : d' = d
    · subst hd
      rw [update_self] at hmem
      rcases mem_insert.1 hmem with heq | ⟨hmem, -⟩
      · cases heq
        exact ⟨k, r, update_self .., hplace, rfl⟩
      · obtain ⟨k', r', hk', hrest⟩ := (h d' s' e).1 hmem
        exact ⟨k', r', by rwa [update_of_ne (hold k' r' hk')], hrest⟩
    · rw [update_of_ne hd] at hmem
      obtain ⟨k', r', hk', hrest⟩ := (h d' s' e).1 hmem
      exact ⟨k', r', by rwa [update_of_ne (hold k' r' hk')], hrest⟩
  · rintro ⟨k', r', hk', hplace', rfl⟩
    by_cases hkk : k' = k
    · subst hkk
      rw [update_self] at hk'
      cases hk'
      cases hplace.symm.trans hplace'
      rw [update_self]
      exact mem_insert.2 (.inl rfl)
    · rw [update_of_ne hkk] at hk'
      have hmem := h.mem hk' hplace'
      by_cases hd : d' = d
      · subst hd
        rw [update_self]
        exact mem_insert.2 (.inr ⟨hmem, hfresh _ hmem⟩)
      · rwa [update_of_ne hd]

theorem erase (h : Indexes primary place entry index) (hentry : ∀ {k r k' r'}, entry k r = entry k' r' → k = k')
    (hk : primary k = some r) (hplace : place r = some (d, s)) :
    Indexes (update primary k none) place entry (update index d ((index d).erase s)) := by
  intro d' s' e
  constructor
  · intro hmem
    have hmem' : (s', e) ∈ (index d').entries ∧ ¬(d' = d ∧ s' = s) := by
      by_cases hd : d' = d
      · subst hd
        rw [update_self] at hmem
        obtain ⟨hmem, hs⟩ := mem_erase.1 hmem
        exact ⟨hmem, fun hboth => hs hboth.2⟩
      · rw [update_of_ne hd] at hmem
        exact ⟨hmem, fun hboth => hd hboth.1⟩
    obtain ⟨k', r', hk', hplace', rfl⟩ := (h d' s' e).1 hmem'.1
    have hne : k' ≠ k := by
      rintro rfl
      cases hk.symm.trans hk'
      cases hplace.symm.trans hplace'
      exact hmem'.2 ⟨rfl, rfl⟩
    exact ⟨k', r', by rwa [update_of_ne hne], hplace', rfl⟩
  · rintro ⟨k', r', hk', hplace', rfl⟩
    have hne : k' ≠ k := by
      rintro rfl
      simp at hk'
    rw [update_of_ne hne] at hk'
    have hmem := h.mem hk' hplace'
    by_cases hd : d' = d
    · subst hd
      rw [update_self]
      refine mem_erase.2 ⟨hmem, ?_⟩
      -- one entry for each position: the same position would be the same record
      rintro rfl
      exact hne (hentry (value_unique hmem (h.mem hk hplace)))
    · rwa [update_of_ne hd]

end Indexes

end
