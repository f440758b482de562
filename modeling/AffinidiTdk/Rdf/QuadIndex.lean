/-
The index from blank nodes to quads that canonicalization builds. It has a quad once for each position
of the blank node, so that a quad with the blank node in two positions is hashed twice.
-/
import AffinidiTdk.Rdf.Canonical

namespace AffinidiTdk.Rdf

open List Dataset

variable {quads : List Quad} {quad : Quad} {id : Text}

theorem filterMap_eq_replicate (quad : Quad) (ids : List Text) (id : Text) :
    (ids.filterMap fun other => if other = id then some quad else none) = List.replicate (ids.count id) quad := by
  induction ids with
  | nil => rfl
  | cons other ids ih =>
    rw [filterMap_cons, ih, count_cons]
    by_cases h : other = id
    · rw [if_pos h, if_pos (beq_iff_eq.2 h)]
      rfl
    · rw [if_neg h, if_neg (fun heq => h (beq_iff_eq.1 heq))]
      rfl

theorem quadsOf_cons (quad : Quad) (quads : List Quad) (id : Text) :
    quadsOf (quad :: quads) id = List.replicate ((quadBlankNodeIds quad).count id) quad ++ quadsOf quads id := by
  rw [quadsOf, flatMap_cons, filterMap_eq_replicate]
  rfl

theorem quadsForBlankNode_cons_of_mem (h : id ∈ quadBlankNodeIds quad) :
    quadsForBlankNode ⟨quad :: quads⟩ id = quad :: quadsForBlankNode ⟨quads⟩ id :=
  filter_cons_of_pos (Quad.referencesBlankNode_iff.2 h)

theorem quadsForBlankNode_cons_of_not_mem (h : id ∉ quadBlankNodeIds quad) :
    quadsForBlankNode ⟨quad :: quads⟩ id = quadsForBlankNode ⟨quads⟩ id :=
  filter_cons_of_neg fun href => h (Quad.referencesBlankNode_iff.1 href)

theorem quadsForBlankNode_sublist (quads : List Quad) (id : Text) :
    (quadsForBlankNode ⟨quads⟩ id).Sublist (quadsOf quads id) := by
  induction quads with
  | nil => exact List.Sublist.slnil
  | cons quad quads ih =>
    rw [quadsOf_cons]
    by_cases h : id ∈ quadBlankNodeIds quad
    · rw [quadsForBlankNode_cons_of_mem h, ← Nat.sub_add_cancel (count_pos_iff.2 h), replicate_succ]
      exact (ih.trans (sublist_append_right _ _)).cons_cons quad
    · rw [quadsForBlankNode_cons_of_not_mem h]
      exact ih.trans (sublist_append_right _ _)

theorem quadsOf_eq_quadsForBlankNode_iff :
    quadsOf quads id = quadsForBlankNode ⟨quads⟩ id ↔ ∀ quad ∈ quads, (quadBlankNodeIds quad).count id ≤
      1 := by
  induction quads with
  | nil => exact iff_of_true rfl fun quad hquad => absurd hquad not_mem_nil
  | cons quad quads ih =>
    rw [forall_mem_cons, ← ih, quadsOf_cons]
    have hrest := quadsForBlankNode_sublist quads id
    by_cases h : id ∈ quadBlankNodeIds quad
    · have hpos := count_pos_iff.2 h
      rw [quadsForBlankNode_cons_of_mem h]
      constructor
      · intro heq
        -- were there two positions, the index would be longer
        have hlength := congrArg List.length heq
        rw [length_append, length_replicate, length_cons] at hlength
        have hle := hrest.length_le
        have hone : (quadBlankNodeIds quad).count id = 1 := by omega
        rw [hone] at heq
        exact ⟨by omega, (List.cons.inj heq).2⟩
      · rintro ⟨hle, heq⟩
        have hone : (quadBlankNodeIds quad).count id = 1 := by omega
        rw [hone, heq]
        rfl
    · rw [quadsForBlankNode_cons_of_not_mem h, count_eq_zero.2 h, replicate_zero, nil_append,
        and_iff_right (Nat.zero_le 1)]

/-- What is hashed for a blank node of a dataset is its quads in any order, and the first-degree hash is
that of these quads, if and only if the blank node stands in each of them once. -/
theorem quadsOf_perm_iff (sha256 : Text → Text) (dataset : Dataset) (id : Text) :
    ((quadsOf (dedupQuads [] dataset.quads) id).Perm (quadsForBlankNode ⟨dedupQuads [] dataset.quads⟩ id) ∧
      hashFirstDegreeQuads sha256 id (quadsOf (dedupQuads [] dataset.quads) id) =
        hashFirstDegreeQuads sha256 id (quadsForBlankNode ⟨dedupQuads [] dataset.quads⟩ id)) ↔
      ∀ quad ∈ dedupQuads [] dataset.quads, (quadBlankNodeIds quad).count id ≤ 1 := by
  generalize dedupQuads [] dataset.quads = quads
  rw [← quadsOf_eq_quadsForBlankNode_iff]
  constructor
  · rintro ⟨hperm, -⟩
    exact ((quadsForBlankNode_sublist quads id).eq_of_length hperm.length_eq.symm).symm
  · intro heq
    rw [heq]
    exact ⟨List.Perm.refl _, rfl⟩

/-- `_:b <p> _:b` is hashed as two quads. -/
theorem quadsOf_not_perm :
    ¬∀ (dataset : Dataset) (id : Text), id ∈ blankNodes (dedupQuads [] dataset.quads) →
      (quadsOf (dedupQuads [] dataset.quads) id).Perm
        (quadsForBlankNode ⟨dedupQuads [] dataset.quads⟩ id) := by
  intro hall
  have hperm := hall ⟨[⟨.blank ⟨['b']⟩, ⟨['p']⟩, .blank ⟨['b']⟩, .default⟩]⟩ ['b'] (by decide +kernel)
  exact absurd hperm.length_eq (by decide +kernel)

end AffinidiTdk.Rdf
