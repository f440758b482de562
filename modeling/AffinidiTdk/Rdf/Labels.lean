/-
Canonical labelling is a complete bijection: whatever the order of the hash map, the labels stand for
exactly the blank nodes of the dataset and are `c14n0` to `c14n(n-1)`. The issuers of the recursion only
ever grow, within the blank nodes of the quads, and its fuel never runs out.
-/
import AffinidiTdk.Rdf.Canonical
import Mathlib.Data.Finset.Card

namespace AffinidiTdk.Rdf

open List
open NQuads

/-! ## Identifiers -/

variable {id : Text}

theorem lookup_eq_some_iff_mem {entries : List (Text × Text)} (hnodup : (entries.map Prod.fst).Nodup)
    {label : Text} : entries.lookup id = some label ↔ (id, label) ∈ entries := by
  induction entries with
  | nil => simp
  | cons entry entries ih =>
    obtain ⟨hhead, htail⟩ := nodup_cons.1 hnodup
    rw [lookup_cons, mem_cons]
    by_cases heq : id = entry.1
    · have hnot : (id, label) ∉ entries := fun hmem => hhead (mem_map.2 ⟨_, hmem, heq⟩)
      obtain ⟨key, value⟩ := entry
      obtain rfl : id = key := heq
      simp [hnot, eq_comm]
    · have hne : (id == entry.1) = false := beq_eq_false_iff_ne.2 heq
      have hentry : (id, label) ≠ entry := fun h => heq (congrArg Prod.fst h)
      rw [hne]
      exact (ih htail).trans ⟨.inr, fun hor => hor.resolve_left hentry⟩

namespace IdentifierIssuer

theorem identifier_injective (prefixText : Text) : Function.Injective (identifier prefixText) := by
  intro m n h
  have hdigits : Nat.toDigits 10 m = Nat.toDigits 10 n := append_cancel_left h
  rw [← Nat.ofDigitChars_ten_toDigits (n := m), hdigits, Nat.ofDigitChars_ten_toDigits]

/-- The map, the order and the counter of an issuer say the same. -/
structure Valid (issuer : IdentifierIssuer) : Prop where
  counter : issuer.counter = issuer.order.length
  issued : issuer.issued = issuer.order.zipIdx.map fun entry => (entry.1, identifier issuer.prefixText entry.2)
  nodup : issuer.order.Nodup

variable {issuer : IdentifierIssuer} {id : Text}

theorem valid_new (prefixText : Text) : (new prefixText).Valid := ⟨rfl, rfl, nodup_nil⟩

theorem Valid.keys (h : issuer.Valid) : issuer.issued.map Prod.fst = issuer.order := by
  rw [h.issued, map_map]
  exact zipIdx_map_fst 0 issuer.order

theorem Valid.get_eq_some_iff (h : issuer.Valid) {label : Text} :
    issuer.get id = some label ↔ (id, label) ∈ issuer.issued :=
  lookup_eq_some_iff_mem (h.keys ▸ h.nodup)

theorem Valid.isIssued_iff (h : issuer.Valid) : issuer.isIssued id = true ↔ id ∈ issuer.order := by
  rw [isIssued, Option.isSome_iff_exists, ← h.keys, mem_map]
  constructor
  · rintro ⟨label, hget⟩
    exact ⟨(id, label), h.get_eq_some_iff.1 hget, rfl⟩
  · rintro ⟨⟨_, label⟩, hmem, rfl⟩
    exact ⟨label, h.get_eq_some_iff.2 hmem⟩

theorem Valid.get_eq_none_iff (h : issuer.Valid) : issuer.get id = none ↔ id ∉ issuer.order := by
  rw [← h.isIssued_iff, isIssued, Bool.not_eq_true, Option.isSome_eq_false_iff, Option.isNone_iff_eq_none]

theorem prefixText_issue (issuer : IdentifierIssuer) (id : Text) :
    (issuer.issue id).1.prefixText = issuer.prefixText := by
  rw [issue]
  split <;> rfl

theorem Valid.order_issue (h : issuer.Valid) :
    (issuer.issue id).1.order = if id ∈ issuer.order then issuer.order else issuer.order ++ [id] := by
  rw [issue]
  split
  · next canonical hget => rw [if_pos (h.isIssued_iff.1 (by rw [isIssued, hget]; rfl))]
  · next hget => rw [if_neg (h.get_eq_none_iff.1 hget)]

theorem Valid.mem_order_issue (h : issuer.Valid) {other : Text} :
    other ∈ (issuer.issue id).1.order ↔ other ∈ issuer.order ∨ other = id := by
  rw [h.order_issue]
  split_ifs with hmem
  · exact ⟨.inl, fun hor => hor.elim (fun h => h) fun heq => heq ▸ hmem⟩
  · rw [mem_append, mem_singleton]

theorem Valid.issue (h : issuer.Valid) (id : Text) : (issuer.issue id).1.Valid := by
  cases hget : issuer.get id with
  | some canonical =>
    rw [IdentifierIssuer.issue, hget]
    exact h
  | none =>
    have hnew : id ∉ issuer.order := h.get_eq_none_iff.1 hget
    rw [IdentifierIssuer.issue, hget]
    refine ⟨?_, ?_, ?_⟩
    · simp [h.counter]
    · simp [h.issued, h.counter, zipIdx_append]
    · simpa using h.nodup.concat hnew

theorem Valid.issueAll (h : issuer.Valid) (ids : List Text) : (issuer.issueAll ids).Valid := by
  rw [IdentifierIssuer.issueAll]
  induction ids generalizing issuer with
  | nil => exact h
  | cons id ids ih => exact ih (h.issue id)

theorem Valid.mem_order_issueAll (h : issuer.Valid) {ids : List Text} {other : Text} :
    other ∈ (issuer.issueAll ids).order ↔ other ∈ issuer.order ∨ other ∈ ids := by
  rw [IdentifierIssuer.issueAll]
  induction ids generalizing issuer with
  | nil => simp
  | cons id ids ih =>
    rw [foldl_cons, ih (h.issue id), h.mem_order_issue, mem_cons, or_assoc]

theorem prefixText_issueAll (issuer : IdentifierIssuer) (ids : List Text) :
    (issuer.issueAll ids).prefixText = issuer.prefixText := by
  rw [issueAll]
  induction ids generalizing issuer with
  | nil => rfl
  | cons id ids ih => rw [foldl_cons, ih, prefixText_issue]

/-- An issuer that grew from another by blank nodes of a list. -/
structure Extends (ids : List Text) (issuer grown : IdentifierIssuer) : Prop where
  valid : grown.Valid
  grows : issuer.order ⊆ grown.order
  within : ∀ id ∈ grown.order, id ∈ issuer.order ∨ id ∈ ids

variable {ids : List Text} {grown final : IdentifierIssuer}

theorem Valid.extends (h : issuer.Valid) (ids : List Text) : Extends ids issuer issuer :=
  ⟨h, fun _ hid => hid, fun _ hid => .inl hid⟩

theorem Extends.trans (h : Extends ids issuer grown) (h' : Extends ids grown final) : Extends ids issuer final :=
  ⟨h'.valid, fun _ hid => h'.grows (h.grows hid), fun id hid => (h'.within id hid).elim (h.within id) .inr⟩

theorem Valid.extends_issue (h : issuer.Valid) (hid : id ∈ ids) : Extends ids issuer (issuer.issue id).1 := by
  refine ⟨h.issue id, fun other hother => h.mem_order_issue.2 (.inl hother), fun other hother => ?_⟩
  rcases h.mem_order_issue.1 hother with hold | rfl
  · exact .inl hold
  · exact .inr hid

/-- The blank nodes an issuer has not seen yet. -/
def remaining (ids : List Text) (issuer : IdentifierIssuer) : ℕ := (ids.toFinset \ issuer.order.toFinset).card

theorem remaining_le (h : issuer.order ⊆ grown.order) : remaining ids grown ≤ remaining ids issuer := by
  refine Finset.card_le_card (Finset.sdiff_subset_sdiff (Finset.Subset.refl _) fun id hid => ?_)
  exact mem_toFinset.2 (h (mem_toFinset.1 hid))

theorem remaining_lt (h : issuer.order ⊆ grown.order) (hid : id ∈ ids) (hnew : id ∉ issuer.order)
    (hissued : id ∈ grown.order) : remaining ids grown < remaining ids issuer := by
  refine Finset.card_lt_card ⟨Finset.sdiff_subset_sdiff (Finset.Subset.refl _) fun id hid => ?_, fun hsub => ?_⟩
  · exact mem_toFinset.2 (h (mem_toFinset.1 hid))
  · have hmem : id ∈ ids.toFinset \ grown.order.toFinset := hsub (by simp [hid, hnew])
    exact (Finset.mem_sdiff.1 hmem).2 (mem_toFinset.2 hissued)

end IdentifierIssuer

open IdentifierIssuer

/-! ## Groups -/

/-- Everything that was pushed. -/
def Groups.values (groups : Groups) : List Text := groups.flatMap Prod.snd

theorem Groups.values_push (hash value : Text) (groups : Groups) :
    (groups.push hash value).values.Perm (value :: groups.values) := by
  induction groups with
  | nil => exact Perm.refl _
  | cons group groups ih =>
    obtain ⟨key, values⟩ := group
    rw [push]
    split_ifs
    · exact Perm.refl _
    · simp only [Groups.values, flatMap_cons, append_assoc]
      exact perm_middle
    · simp only [Groups.values, flatMap_cons] at ih ⊢
      exact (ih.append_left values).trans perm_middle

theorem Groups.values_foldl_push {α : Type} (hash value : α → Text) (items : List α) (groups : Groups) :
    (items.foldl (fun groups item => groups.push (hash item) (value item)) groups).values.Perm
      (items.map value ++ groups.values) := by
  induction items generalizing groups with
  | nil => exact Perm.refl _
  | cons item items ih =>
    rw [foldl_cons, map_cons]
    exact (ih _).trans (((Groups.values_push _ _ groups).append_left _).trans perm_middle)

theorem mem_relatedBlankNodes {quad : Quad} {target : Text} {related : Text × Position × Text}
    (h : related ∈ relatedBlankNodes quad target) : related.1 ∈ quadBlankNodeIds quad := by
  simp only [relatedBlankNodes, mem_append] at h
  simp only [quadBlankNodeIds, mem_append]
  refine h.imp (Or.imp ?_ ?_) ?_
  · cases quad.subject <;> grind
  · cases quad.object <;> grind
  · cases quad.graph <;> grind

variable {quads : List Quad}

theorem mem_quadsOf {quad : Quad} (h : quad ∈ quadsOf quads id) : quad ∈ quads := by
  obtain ⟨other, hother, hmem⟩ := mem_flatMap.1 h
  obtain ⟨_, -, hsome⟩ := mem_filterMap.1 hmem
  split_ifs at hsome
  exact Option.some.inj hsome ▸ hother

theorem mem_blankNodes : id ∈ blankNodes quads ↔ ∃ quad ∈ quads, id ∈ quadBlankNodeIds quad := by
  rw [blankNodes, mem_dedup, mem_flatMap]

theorem mem_hashToRelated {sha256 : Text → Text} {look : Lookup} {blankNodeId : Text} {issuer : IdentifierIssuer}
    {group : Text × List Text} (hgroup : group ∈ hashToRelated sha256 look blankNodeId issuer)
    (hid : id ∈ group.2) : id ∈ blankNodes look.quads := by
  have hvalue : id ∈ (hashToRelated sha256 look blankNodeId issuer).values := mem_flatMap.2 ⟨group, hgroup, hid⟩
  have hmem := (Groups.values_foldl_push _ _ _ _).mem_iff.1 hvalue
  simp only [Groups.values, flatMap_nil, append_nil, mem_map, mem_flatMap] at hmem
  obtain ⟨related, ⟨quad, hquad, hrelated⟩, rfl⟩ := hmem
  exact mem_blankNodes.2 ⟨quad, mem_quadsOf hquad, mem_relatedBlankNodes hrelated⟩

/-! ## The recursion -/

/-- A computation that does not run out of fuel, and whose result is as said. -/
def Meets {α : Type} (x : Except Halt α) (post : α → Prop) : Prop := x ≠ .error .deep ∧ ∀ a, x = .ok a → post a

section
variable {α β : Type} {x : Except Halt α} {post : α → Prop}

theorem meets_pure {a : α} (h : post a) : Meets (pure a : Except Halt α) post :=
  ⟨nofun, fun _ heq => Except.ok.inj heq ▸ h⟩

theorem meets_throw (e : RdfError) : Meets (throw (.error e) : Except Halt α) post := by
  refine ⟨fun heq => ?_, nofun⟩
  exact absurd (Except.error.inj heq) nofun

theorem Meets.bind {f : α → Except Halt β} {after : β → Prop} (h : Meets x post)
    (hf : ∀ a, post a → Meets (f a) after) : Meets (x >>= f) after := by
  cases x with
  | ok a => exact hf a (h.2 a rfl)
  | error e =>
    refine ⟨fun heq => ?_, nofun⟩
    exact h.1 (congrArg Except.error (Except.error.inj heq))

/-- Two computations that agree after every result that the first may have. -/
theorem Meets.bind_agree {f g : α → Except Halt β} {after : β → Prop} (h : Meets x post)
    (hf : ∀ a, post a → f a = g a ∧ Meets (f a) after) : x >>= f = x >>= g ∧ Meets (x >>= f) after := by
  refine ⟨?_, h.bind fun a ha => (hf a ha).2⟩
  cases x with
  | ok a => exact (hf a (h.2 a rfl)).1
  | error e => rfl

end

section
variable {ids : List Text} {fuel : ℕ} {recurse : Recursion} {issuer : IdentifierIssuer} {choice : Choice}
  {canonical : IdentifierIssuer}

/-- With enough fuel the recursion ends, and its issuer has grown within the blank nodes. -/
def Recursion.Sound (recurse : Recursion) (ids : List Text) (fuel : ℕ) : Prop :=
  ∀ id ∈ ids, ∀ issuer : IdentifierIssuer, issuer.Valid → remaining ids issuer < fuel →
    Meets (recurse id issuer) fun result => Extends ids issuer result.2

/-- Two recursions that agree on the blank nodes, with issuers that have fewer than so many left. -/
def Agree (ids : List Text) (fuel : ℕ) (recurse other : Recursion) : Prop :=
  ∀ id ∈ ids, ∀ issuer : IdentifierIssuer, issuer.Valid → remaining ids issuer < fuel →
    recurse id issuer = other id issuer

def Choice.Extends (choice : Choice) (ids : List Text) (issuer : IdentifierIssuer) : Prop :=
  ∀ chosen, choice.issuer = some chosen → IdentifierIssuer.Extends ids issuer chosen

theorem Choice.Extends.getD (h : choice.Extends ids issuer) (hvalid : issuer.Valid) :
    IdentifierIssuer.Extends ids issuer (choice.issuer.getD issuer) := by
  cases hissuer : choice.issuer with
  | none => exact hvalid.extends ids
  | some chosen => exact h chosen hissuer

/-- The nodes left to the recursion have just been issued. -/
theorem pathOf_extends (related : List Text) (hrelated : ∀ id ∈ related, id ∈ ids) {grown : IdentifierIssuer}
    {path' : Text} {pending' : List Text} : ∀ {issuer : IdentifierIssuer} {path : Text} {pending : List Text},
    issuer.Valid → pathOf canonical choice related issuer path pending = some (grown, path', pending') →
    Extends ids issuer grown ∧
      ∀ id ∈ pending', id ∈ pending ∨ id ∈ ids ∧ id ∉ issuer.order ∧ id ∈ grown.order := by
  induction related with
  | nil =>
    intro issuer path pending hvalid h
    obtain ⟨rfl, -, rfl⟩ : issuer = grown ∧ path = path' ∧ pending = pending' := by simpa [pathOf] using h
    exact ⟨hvalid.extends ids, fun id hid => .inl hid⟩
  | cons id related ih =>
    intro issuer path pending hvalid h
    have hid : id ∈ ids := hrelated id mem_cons_self
    have hrest : ∀ other ∈ related, other ∈ ids :=
      fun other hother => hrelated other (mem_cons_of_mem id hother)
    rw [pathOf] at h
    split at h
    · dsimp only at h
      split_ifs at h
      exact ih hrest hvalid h
    · have hissue : ∀ other, other ∉ (issuer.issue id).1.order → other ∉ issuer.order :=
        fun other hnot hold => hnot (hvalid.mem_order_issue.2 (.inl hold))
      by_cases hold : issuer.isIssued id = true
      · simp only [if_pos hold] at h
        split_ifs at h
        obtain ⟨hextends, hpending⟩ := ih hrest (hvalid.issue id) h
        refine ⟨(hvalid.extends_issue hid).trans hextends, fun other hother => ?_⟩
        rcases hpending other hother with hmem | ⟨hmem, hnew, hissued⟩
        · exact .inl hmem
        · exact .inr ⟨hmem, hissue other hnew, hissued⟩
      · simp only [if_neg hold] at h
        split_ifs at h
        obtain ⟨hextends, hpending⟩ := ih hrest (hvalid.issue id) h
        refine ⟨(hvalid.extends_issue hid).trans hextends, fun other hother => ?_⟩
        rcases hpending other hother with hmem | ⟨hmem, hnew, hissued⟩
        · rcases mem_append.1 hmem with hbefore | hlast
          · exact .inl hbefore
          · obtain rfl := mem_singleton.1 hlast
            refine .inr ⟨hid, fun hmem => hold (hvalid.isIssued_iff.2 hmem), ?_⟩
            exact hextends.grows (hvalid.mem_order_issue.2 (.inr rfl))
        · exact .inr ⟨hmem, hissue other hnew, hissued⟩

section

variable {other : Recursion} (hagree : Agree ids fuel recurse other) (hrecurse : recurse.Sound ids fuel)
include hagree hrecurse

theorem deepen_agree (choice : Choice) (pending : List Text) (hpending : ∀ id ∈ pending, id ∈ ids) :
    ∀ (issuer : IdentifierIssuer) (path : Text), issuer.Valid → (pending ≠ [] → remaining ids issuer < fuel) →
    deepen recurse choice pending issuer path = deepen other choice pending issuer path ∧
      Meets (deepen recurse choice pending issuer path) fun result => ∀ left ∈ result, Extends ids issuer left.1 := by
  induction pending with
  | nil =>
    exact fun issuer path hvalid _ => ⟨rfl, meets_pure fun left hleft => Option.some.inj hleft ▸ hvalid.extends ids⟩
  | cons id pending ih =>
    intro issuer path hvalid hfuel
    have hlt := hfuel (cons_ne_nil _ _)
    have hid := hpending id mem_cons_self
    rw [deepen, deepen, ← hagree id hid issuer hvalid hlt]
    refine (hrecurse id hid issuer hvalid hlt).bind_agree fun result hresult => ?_
    obtain ⟨hsame, hrest⟩ := ih (fun other hother => hpending other (mem_cons_of_mem id hother)) result.2
      (path ++ '_' :: ':' :: (result.2.get id).getD [] ++ '<' :: result.1 ++ ['>']) hresult.valid
      fun _ => Nat.lt_of_le_of_lt (remaining_le hresult.grows) hlt
    dsimp only
    split_ifs
    · exact ⟨rfl, meets_pure nofun⟩
    · exact ⟨hsame, hrest.1, fun left hleft grown hgrown => hresult.trans (hrest.2 left hleft grown hgrown)⟩

theorem tryPermutation_agree (hvalid : issuer.Valid) (hfuel : remaining ids issuer < fuel + 1)
    {related : List Text} (hrelated : ∀ id ∈ related, id ∈ ids) (hchoice : choice.Extends ids issuer) :
    tryPermutation canonical recurse issuer related choice = tryPermutation canonical other issuer related choice ∧
      Meets (tryPermutation canonical recurse issuer related choice) fun choice => choice.Extends ids issuer := by
  rw [tryPermutation, tryPermutation]
  split
  · exact ⟨rfl, meets_pure hchoice⟩
  · next issuerCopy path pending hpath =>
    obtain ⟨hextends, hpending⟩ := pathOf_extends related hrelated hvalid hpath
    have hnew : ∀ id ∈ pending, id ∈ ids ∧ id ∉ issuer.order ∧ id ∈ issuerCopy.order :=
      fun id hid => (hpending id hid).resolve_left not_mem_nil
    have hless : pending ≠ [] → remaining ids issuerCopy < fuel := by
      intro hne
      obtain ⟨id, hid⟩ := exists_mem_of_ne_nil pending hne
      obtain ⟨hmem, hold, hissued⟩ := hnew id hid
      exact Nat.lt_of_lt_of_le (remaining_lt hextends.grows hmem hold hissued) (Nat.le_of_lt_succ hfuel)
    obtain ⟨hsame, hdeepen⟩ := deepen_agree hagree hrecurse choice pending (fun id hid => (hnew id hid).1)
      issuerCopy path hextends.valid hless
    rw [← hsame]
    refine ⟨rfl, hdeepen.bind fun result hresult => ?_⟩
    split
    · exact meets_pure hchoice
    · split_ifs
      · exact meets_pure fun chosen hchosen => Option.some.inj hchosen ▸ hextends.trans (hresult _ rfl)
      · exact meets_pure hchoice

theorem permutationLoop_agree (canonical : IdentifierIssuer) (hvalid : issuer.Valid)
    (hfuel : remaining ids issuer < fuel + 1) {group : List Text} (hgroup : ∀ id ∈ group, id ∈ ids) (left : ℕ) :
    ∀ (permIndices : List ℕ) (choice : Choice), choice.Extends ids issuer →
      permutationLoop canonical recurse issuer group left permIndices choice =
      permutationLoop canonical other issuer group left permIndices choice ∧
      Meets (permutationLoop canonical recurse issuer group left permIndices choice) fun result =>
        result.1.Extends ids issuer := by
  induction left with
  | zero => exact fun permIndices choice _ => ⟨rfl, meets_throw _⟩
  | succ left ih =>
    intro permIndices choice hchoice
    have hrelated : ∀ id ∈ permIndices.filterMap fun idx => group[idx]?, id ∈ ids := by
      intro id hid
      obtain ⟨idx, -, hget⟩ := mem_filterMap.1 hid
      exact hgroup id (mem_of_getElem? hget)
    obtain ⟨hsame, htry⟩ := tryPermutation_agree hagree hrecurse hvalid hfuel hrelated hchoice
    rw [permutationLoop, permutationLoop, ← hsame]
    refine htry.bind_agree fun choice hchoice => ?_
    split
    · exact ⟨rfl, meets_pure hchoice⟩
    · exact ih _ choice hchoice

/-- Two recursions that agree give one hash for the groups, and an issuer that has grown. -/
theorem groupLoop_agree (groups : Groups) (hgroups : ∀ group ∈ groups, ∀ id ∈ group.2, id ∈ ids) : ∀ (data : Text)
    (issuer : IdentifierIssuer) (left : ℕ), issuer.Valid → remaining ids issuer < fuel + 1 →
    groupLoop canonical recurse groups data issuer left = groupLoop canonical other groups data issuer left ∧
      Meets (groupLoop canonical recurse groups data issuer left) fun result => Extends ids issuer result.2 := by
  induction groups with
  | nil => exact fun data issuer left hvalid _ => ⟨rfl, meets_pure (hvalid.extends ids)⟩
  | cons group groups ih =>
    intro data issuer left hvalid hfuel
    obtain ⟨hash, blankNodeList⟩ := group
    have hstart : Choice.Extends ⟨[], none⟩ ids issuer := fun _ hnone => absurd hnone (by simp)
    obtain ⟨hsame, hloop⟩ := permutationLoop_agree hagree hrecurse canonical hvalid hfuel
      (hgroups _ mem_cons_self) left (range blankNodeList.length) _ hstart
    rw [groupLoop, groupLoop, ← hsame]
    refine hloop.bind_agree fun result hresult => ?_
    have hextends := hresult.getD hvalid
    obtain ⟨hrestSame, hrest⟩ := ih (fun group hgroup => hgroups group (mem_cons_of_mem _ hgroup))
      (data ++ hash ++ result.1.path)
      _ result.2 hextends.valid (Nat.lt_of_le_of_lt (remaining_le hextends.grows) hfuel)
    exact ⟨hrestSame, hrest.1, fun final hfinal => hextends.trans (hrest.2 final hfinal)⟩

end

/-- **Depth**: every call of the recursion has issued a node its caller had not, so as much fuel as
there are nodes left is enough. -/
theorem hashNdegreeQuads_sound (sha256 : Text → Text) (look : Lookup) (fuel : ℕ) :
    Recursion.Sound (hashNdegreeQuads sha256 look fuel) (blankNodes look.quads) fuel := by
  induction fuel with
  | zero => exact fun id _ issuer _ hfuel => absurd hfuel (Nat.not_lt_zero _)
  | succ fuel ih =>
    intro id hid issuer hvalid hfuel
    rw [hashNdegreeQuads]
    refine (groupLoop_agree (fun _ _ _ _ _ => rfl) ih _ (fun group hgroup id hid => mem_hashToRelated hgroup hid) []
      issuer _ hvalid hfuel).2.bind fun result hresult => meets_pure ?_
    exact hresult.trans (hresult.valid.extends_issue hid)

end

/-! ## The labels -/

/-- An issuer of canonical labels for blank nodes of a list. -/
structure Labelling (ids : List Text) (canonical : IdentifierIssuer) : Prop where
  valid : canonical.Valid
  prefixText : canonical.prefixText = "c14n".toList
  within : ∀ id ∈ canonical.order, id ∈ ids

section
variable {ids : List Text} {canonical : IdentifierIssuer}

theorem Labelling.issueAll (h : Labelling ids canonical) {others : List Text} (hothers : ∀ id ∈ others, id ∈ ids) :
    Labelling ids (canonical.issueAll others) := by
  refine ⟨h.valid.issueAll others, (prefixText_issueAll canonical others).trans h.prefixText, fun id hid => ?_⟩
  exact (h.valid.mem_order_issueAll.1 hid).elim (h.within id) (hothers id)

theorem issueUnique_labelling {groups : Groups} (hgroups : ∀ group ∈ groups, ∀ id ∈ group.2, id ∈ ids) :
    Labelling ids (issueUnique groups) ∧
      ∀ group ∈ groups, group.2.length = 1 → ∀ id ∈ group.2, id ∈ (issueUnique groups).order := by
  have hfold : ∀ (groups : Groups) (canonical : IdentifierIssuer), Labelling ids canonical →
      (∀ group ∈ groups, ∀ id ∈ group.2, id ∈ ids) →
      let final := groups.foldl (fun canonical group =>
        if group.2.length = 1 then canonical.issueAll group.2 else canonical) canonical
      Labelling ids final ∧ canonical.order ⊆ final.order ∧
        ∀ group ∈ groups, group.2.length = 1 → ∀ id ∈ group.2, id ∈ final.order := by
    intro groups
    induction groups with
    | nil => exact fun canonical h _ => ⟨h, fun _ hid => hid, nofun⟩
    | cons group groups ih =>
      intro canonical h hgroups
      have hrest : ∀ other ∈ groups, ∀ id ∈ other.2, id ∈ ids :=
        fun other hother => hgroups other (mem_cons_of_mem group hother)
      rw [foldl_cons]
      by_cases hone : group.2.length = 1
      · rw [if_pos hone]
        obtain ⟨hfinal, hgrows, hissued⟩ := ih _ (h.issueAll (hgroups group mem_cons_self)) hrest
        refine ⟨hfinal, fun id hid => hgrows (h.valid.mem_order_issueAll.2 (.inl hid)),
          fun other hother hlen id hid => ?_⟩
        rcases mem_cons.1 hother with rfl | hother
        · exact hgrows (h.valid.mem_order_issueAll.2 (.inr hid))
        · exact hissued other hother hlen id hid
      · rw [if_neg hone]
        obtain ⟨hfinal, hgrows, hissued⟩ := ih canonical h hrest
        refine ⟨hfinal, hgrows, fun other hother hlen id hid => ?_⟩
        rcases mem_cons.1 hother with rfl | hother
        · exact absurd hlen hone
        · exact hissued other hother hlen id hid
  obtain ⟨hlabelling, -, hissued⟩ := hfold groups _ ⟨valid_new _, rfl, nofun⟩ hgroups
  exact ⟨hlabelling, hissued⟩

variable {fuel : ℕ} {recurse : Recursion}

theorem hashPathList_meets (hrecurse : recurse.Sound ids fuel) (hfuel : ids.length ≤ fuel)
    (hcanonical : canonical.Valid) (bnIds : List Text) (hids : ∀ id ∈ bnIds, id ∈ ids) :
    Meets (hashPathList recurse canonical bnIds) fun results =>
      (∀ result ∈ results, ∀ id ∈ result.2.order, id ∈ ids) ∧
      ∀ id ∈ bnIds, id ∈ canonical.order ∨ ∃ result ∈ results, id ∈ result.2.order := by
  induction bnIds with
  | nil => exact meets_pure ⟨nofun, nofun⟩
  | cons bnId bnIds ih =>
    have hmem : bnId ∈ ids := hids bnId mem_cons_self
    have hrest := ih fun id hid => hids id (mem_cons_of_mem bnId hid)
    rw [hashPathList]
    by_cases hissued : canonical.isIssued bnId = true
    · rw [if_pos hissued]
      refine ⟨hrest.1, fun results hresults => ⟨(hrest.2 results hresults).1, fun id hid => ?_⟩⟩
      rcases mem_cons.1 hid with rfl | hid
      · exact .inl (hcanonical.isIssued_iff.1 hissued)
      · exact (hrest.2 results hresults).2 id hid
    · rw [if_neg hissued]
      have hnew : (IdentifierIssuer.new ['b']).Valid := valid_new _
      have hstart : bnId ∈ ((IdentifierIssuer.new ['b']).issue bnId).1.order := hnew.mem_order_issue.2 (.inr rfl)
      have hlt : remaining ids ((IdentifierIssuer.new ['b']).issue bnId).1 < fuel := by
        have hless : remaining ids ((IdentifierIssuer.new ['b']).issue bnId).1 < remaining ids (.new ['b']) :=
          remaining_lt (fun id hid => hnew.mem_order_issue.2 (.inl hid)) hmem not_mem_nil hstart
        have hall : remaining ids (IdentifierIssuer.new ['b']) ≤ ids.length := by
          rw [remaining, IdentifierIssuer.new, toFinset_nil, Finset.sdiff_empty]
          exact toFinset_card_le ids
        exact Nat.lt_of_lt_of_le hless (Nat.le_trans hall hfuel)
      refine (hrecurse bnId hmem _ (hnew.issue bnId) hlt).bind fun result hresult =>
        hrest.bind fun results hresults => meets_pure ⟨fun other hother => ?_, fun id hid => ?_⟩
      · rcases mem_cons.1 hother with rfl | hother
        · intro id hid
          rcases hresult.within id hid with hold | hin
          · obtain rfl := (hnew.mem_order_issue.1 hold).resolve_left not_mem_nil
            exact hmem
          · exact hin
        · exact hresults.1 other hother
      · rcases mem_cons.1 hid with rfl | hid
        · exact .inr ⟨result, mem_cons_self, hresult.grows hstart⟩
        · exact (hresults.2 id hid).imp_right fun ⟨other, hother, hin⟩ =>
            ⟨other, mem_cons_of_mem result hother, hin⟩

theorem Labelling.foldl_issueAll (results : List (Text × IdentifierIssuer))
    (hresults : ∀ result ∈ results, ∀ id ∈ result.2.order, id ∈ ids) : ∀ {canonical : IdentifierIssuer},
    Labelling ids canonical →
    let final := results.foldl (fun canonical result => canonical.issueAll result.2.order) canonical
    Labelling ids final ∧ ∀ id, id ∈ final.order ↔ id ∈ canonical.order ∨ ∃ result ∈ results,
      id ∈ result.2.order := by
  induction results with
  | nil => exact fun h => ⟨h, fun id => by simp⟩
  | cons result results ih =>
    intro canonical h
    rw [foldl_cons]
    obtain ⟨hfinal, hiff⟩ := ih (fun other hother => hresults other (mem_cons_of_mem result hother))
      (h.issueAll (hresults result mem_cons_self))
    refine ⟨hfinal, fun id => (hiff id).trans ?_⟩
    rw [h.valid.mem_order_issueAll, or_assoc, exists_mem_cons_iff]

theorem nDegreeLoop_meets (sha256 : Text → Text) (quads : List Quad) (hashes : List (Text × Text)) (groups : Groups)
    (hgroups : ∀ group ∈ groups, ∀ id ∈ group.2, id ∈ blankNodes quads) : ∀ (canonical : IdentifierIssuer),
    Labelling (blankNodes quads) canonical →
    Meets (nDegreeLoop sha256 quads hashes (blankNodes quads).length groups canonical) fun final =>
      Labelling (blankNodes quads) final ∧ canonical.order ⊆ final.order ∧
        ∀ group ∈ groups, 1 < group.2.length → ∀ id ∈ group.2, id ∈ final.order := by
  induction groups with
  | nil => exact fun canonical h => meets_pure ⟨h, fun _ hid => hid, nofun⟩
  | cons group groups ih =>
    intro canonical h
    obtain ⟨hash, bnIds⟩ := group
    have hrest := ih fun other hother => hgroups other (mem_cons_of_mem _ hother)
    rw [nDegreeLoop]
    by_cases hone : bnIds.length ≤ 1
    · rw [if_pos hone]
      refine ⟨(hrest canonical h).1, fun final hfinal => ?_⟩
      obtain ⟨hlabelling, hgrows, hissued⟩ := (hrest canonical h).2 final hfinal
      refine ⟨hlabelling, hgrows, fun other hother hlen id hid => ?_⟩
      rcases mem_cons.1 hother with rfl | hother
      · exact absurd hlen (Nat.not_lt.2 hone)
      · exact hissued other hother hlen id hid
    · rw [if_neg hone]
      refine (hashPathList_meets (hashNdegreeQuads_sound sha256 ⟨quads, hashes, canonical⟩ _) le_rfl h.valid bnIds
        (hgroups _ mem_cons_self)).bind fun results hresults => ?_
      have hperm := results.perm_insertionSort fun a b => a.1 ≤ b.1
      obtain ⟨hlabelled, hiff⟩ := h.foldl_issueAll (results.insertionSort fun a b => a.1 ≤ b.1)
        fun result hresult => hresults.1 result (hperm.mem_iff.1 hresult)
      refine ⟨(hrest _ hlabelled).1, fun final hfinal => ?_⟩
      obtain ⟨hlabelling, hgrows, hissued⟩ := (hrest _ hlabelled).2 final hfinal
      refine ⟨hlabelling, fun id hid => hgrows ((hiff id).2 (.inl hid)), fun other hother hlen id hid => ?_⟩
      rcases mem_cons.1 hother with rfl | hother
      · refine hgrows ((hiff id).2 ((hresults.2 id hid).imp_right fun ⟨result, hresult, hin⟩ => ?_))
        exact ⟨result, hperm.mem_iff.2 hresult, hin⟩
      · exact hissued other hother hlen id hid

end

/-! ## Canonical forms -/

/-- One quad for each written form, as many as there are forms, in their order. -/
structure OneOfEach (quads kept : List Quad) : Prop where
  sublist : kept.Sublist quads
  nodup : (kept.map serializeQuad).Nodup
  covers : ∀ quad ∈ quads, serializeQuad quad ∈ kept.map serializeQuad

theorem dedupQuads_spec (quads : List Quad) : ∀ seen, (dedupQuads seen quads).Sublist quads ∧
    ((dedupQuads seen quads).map serializeQuad).Nodup ∧
    (∀ line ∈ (dedupQuads seen quads).map serializeQuad, line ∉ seen) ∧ ∀ quad ∈ quads, serializeQuad quad ∈ seen ∨
    serializeQuad quad ∈ (dedupQuads seen quads).map serializeQuad := by
  induction quads with
  | nil => exact fun seen => ⟨Sublist.refl _, nodup_nil, nofun, nofun⟩
  | cons quad quads ih =>
    intro seen
    rw [dedupQuads]
    by_cases hseen : serializeQuad quad ∈ seen
    · obtain ⟨hsub, hnodup, hnew, hcovers⟩ := ih seen
      rw [if_pos hseen]
      refine ⟨hsub.cons quad, hnodup, hnew, fun other hother => ?_⟩
      rcases mem_cons.1 hother with rfl | hother
      · exact .inl hseen
      · exact hcovers other hother
    · obtain ⟨hsub, hnodup, hnew, hcovers⟩ := ih (serializeQuad quad :: seen)
      rw [if_neg hseen, map_cons]
      refine ⟨hsub.cons_cons quad, nodup_cons.2 ⟨fun hmem => hnew _ hmem mem_cons_self, hnodup⟩, ?_, ?_⟩
      · intro line hline hmem
        rcases mem_cons.1 hline with rfl | hline
        · exact hseen hmem
        · exact hnew line hline (mem_cons_of_mem _ hmem)
      · intro other hother
        rcases mem_cons.1 hother with rfl | hother
        · exact .inr mem_cons_self
        · rcases hcovers other hother with hmem | hmem
          · exact (mem_cons.1 hmem).elim (fun heq => .inr (heq ▸ mem_cons_self)) .inl
          · exact .inr (mem_cons_of_mem _ hmem)

theorem oneOfEach_dedupQuads (quads : List Quad) : OneOfEach quads (dedupQuads [] quads) := by
  obtain ⟨hsub, hnodup, -, hcovers⟩ := dedupQuads_spec quads []
  exact ⟨hsub, hnodup, fun quad hquad => (hcovers quad hquad).resolve_left not_mem_nil⟩

/-- The label of a blank node. -/
def labelOf (labels : List (Text × Text)) (id : Text) : Text := (labels.lookup id).getD id

/-- The labels stand for exactly the blank nodes of the quads, and are `c14n0`, `c14n1` and so on. -/
structure CompleteLabelling (quads : List Quad) (labels : List (Text × Text)) : Prop where
  nodup : (labels.map Prod.fst).Nodup
  keys : ∀ id, id ∈ labels.map Prod.fst ↔ ∃ quad ∈ quads, id ∈ quadBlankNodeIds quad
  values : (labels.map Prod.snd).Perm ((List.range labels.length).map (identifier "c14n".toList))

/-- The text is made of one line for each quad, under the labels and in the order of the code points. -/
def SortedLines (quads : List Quad) (labels : List (Text × Text)) (text : Text) : Prop :=
  ∃ lines : List Text, lines.Perm (quads.map fun quad => serializeQuad (quad.rename (labelOf labels)) ++ ['\n']) ∧
    lines.Pairwise (· ≤ ·) ∧ text = lines.flatten

section
variable {quads : List Quad} {labels : List (Text × Text)}

variable {id : Text}

theorem CompleteLabelling.labelOf_mem (h : CompleteLabelling quads labels) {quad : Quad} (hquad : quad ∈ quads)
    (hid : id ∈ quadBlankNodeIds quad) : (id, labelOf labels id) ∈ labels := by
  obtain ⟨⟨_, label⟩, hmem, rfl⟩ := mem_map.1 ((h.keys id).2 ⟨quad, hquad, hid⟩)
  have hlookup := (lookup_eq_some_iff_mem h.nodup).2 hmem
  rwa [labelOf, hlookup]

theorem CompleteLabelling.values_nodup (h : CompleteLabelling quads labels) : (labels.map Prod.snd).Nodup :=
  h.values.nodup_iff.2 (nodup_range.map (identifier_injective _))

theorem CompleteLabelling.labelOf_inj (h : CompleteLabelling quads labels) {a b : Text}
    (ha : ∃ quad ∈ quads, a ∈ quadBlankNodeIds quad) (hb : ∃ quad ∈ quads, b ∈ quadBlankNodeIds quad)
    (heq : labelOf labels a = labelOf labels b) : a = b := by
  obtain ⟨quad, hquad, ha⟩ := ha
  obtain ⟨other, hother, hb⟩ := hb
  have hsame := inj_on_of_nodup_map h.values_nodup (h.labelOf_mem hquad ha) (h.labelOf_mem hother hb) heq
  exact congrArg Prod.fst hsame

theorem quadBlankNodeIds_rename (f : Text → Text) (quad : Quad) :
    quadBlankNodeIds (quad.rename f) = (quadBlankNodeIds quad).map f := by
  obtain ⟨subject, predicate, object, graph⟩ := quad
  cases subject <;> cases object <;> cases graph <;> rfl

/-- No blank node keeps its own name: each stands under a label of the map. -/
theorem CompleteLabelling.relabelled (h : CompleteLabelling quads labels) {quad : Quad} (hquad : quad ∈ quads)
    (hid : id ∈ quadBlankNodeIds (quad.rename (labelOf labels))) : id ∈ labels.map Prod.snd := by
  rw [quadBlankNodeIds_rename] at hid
  obtain ⟨original, horiginal, rfl⟩ := mem_map.1 hid
  exact mem_map.2 ⟨_, h.labelOf_mem hquad horiginal, rfl⟩

theorem sortTexts_spec (lines : List Text) : (sortTexts lines).Perm lines ∧ (sortTexts lines).Pairwise (· ≤ ·) :=
  ⟨perm_insertionSort _ lines, pairwise_insertionSort _ lines⟩

variable {sha256 : Text → Text} {order : HashOrder} {final : IdentifierIssuer}

theorem labelled_of_groups (hunique : ∀ group ∈ hashToBlankNodes sha256 order quads, group.2.length = 1 → ∀ id ∈
    group.2, id ∈ final.order) (hseveral : ∀ group ∈ hashToBlankNodes sha256 order quads, 1 < group.2.length →
    ∀ id ∈ group.2, id ∈ final.order) (hid : id ∈ blankNodes quads) : id ∈ final.order := by
  have hvalues := Groups.values_foldl_push (fun id => hashFirstDegreeQuads sha256 id (quadsOf quads id))
    (fun id => id)
    (order.keys (blankNodes quads)) []
  have hmem : id ∈ (hashToBlankNodes sha256 order quads).values :=
    hvalues.mem_iff.2 (mem_append_left _ (by simpa using (order.perm _).mem_iff.2 hid))
  obtain ⟨group, hgroup, hin⟩ := mem_flatMap.1 hmem
  rcases Nat.lt_trichotomy group.2.length 1 with hzero | hone | hmore
  · rw [length_eq_zero_iff.1 (Nat.lt_one_iff.1 hzero)] at hin
    exact absurd hin not_mem_nil
  · exact hunique group hgroup hone id hin
  · exact hseveral group hgroup hmore id hin

theorem mem_of_mem_hashToBlankNodes {group : Text × List Text}
    (hgroup : group ∈ hashToBlankNodes sha256 order quads) (hid : id ∈ group.2) : id ∈ blankNodes quads := by
  have hvalue : id ∈ (hashToBlankNodes sha256 order quads).values := mem_flatMap.2 ⟨group, hgroup, hid⟩
  have hmem := (Groups.values_foldl_push _ _ _ _).mem_iff.1 hvalue
  exact (order.perm _).mem_iff.1 (by simpa [Groups.values] using hmem)

theorem completeLabelling_of_labelling (h : Labelling (blankNodes quads) final)
    (hall : ∀ id ∈ blankNodes quads, id ∈ final.order) :
    CompleteLabelling quads (final.issued.insertionSort fun a b => a.1 ≤ b.1) := by
  have hperm := final.issued.perm_insertionSort fun a b => a.1 ≤ b.1
  have hkeys : ((final.issued.insertionSort fun a b => a.1 ≤ b.1).map Prod.fst).Perm final.order :=
    (hperm.map Prod.fst).trans (h.valid.keys ▸ Perm.refl _)
  refine ⟨hkeys.nodup_iff.2 h.valid.nodup, fun id => ?_, ?_⟩
  · rw [hkeys.mem_iff, ← mem_blankNodes]
    exact ⟨h.within id, hall id⟩
  · refine (hperm.map Prod.snd).trans ?_
    have hlength : final.issued.length = final.order.length := by rw [← h.valid.keys, length_map]
    rw [hperm.length_eq, hlength, h.valid.issued, map_map, zipIdx_eq_zip_range', h.prefixText]
    have hsnd : (final.order.zip (range' 0 final.order.length)).map Prod.snd =
      range final.order.length := by
      rw [map_snd_zip (by simp), range_eq_range']
    rw [← hsnd, map_map]
    exact Perm.refl _

end

/-- Canonicalization does not run out of fuel, and its labels and lines are as they should be. -/
theorem canonicalizeWithLabelMap_meets (sha256 : Text → Text) (order : HashOrder) (dataset : Dataset) :
    Meets (canonicalizeWithLabelMap sha256 order dataset) fun result => CompleteLabelling
    (dedupQuads [] dataset.quads) result.2 ∧ SortedLines (dedupQuads [] dataset.quads) result.2 result.1 := by
  rw [canonicalizeWithLabelMap]
  dsimp only
  generalize dedupQuads [] dataset.quads = quads
  by_cases hnone : blankNodes quads = []
  · rw [if_pos hnone]
    obtain ⟨hperm, hsorted⟩ := sortTexts_spec (quads.map fun quad => serializeQuad quad ++ ['\n'])
    have hno (id : Text) : ¬∃ quad ∈ quads, id ∈ quadBlankNodeIds quad := by
      rw [← mem_blankNodes, hnone]
      exact not_mem_nil
    refine meets_pure ⟨⟨nodup_nil, fun id => ⟨nofun, fun h => (hno id h).elim⟩, Perm.refl _⟩, _, ?_,
      hsorted, rfl⟩
    refine hperm.trans (Perm.of_eq (map_congr_left fun quad _ => ?_))
    have hsame : quad.rename (labelOf []) = quad := by
      obtain ⟨subject, predicate, object, graph⟩ := quad
      cases subject <;> cases object <;> cases graph <;> rfl
    rw [hsame]
  · rw [if_neg hnone]
    have hvalues : ∀ group ∈ hashToBlankNodes sha256 order quads, ∀ id ∈ group.2, id ∈ blankNodes quads :=
      fun group hgroup id hid => mem_of_mem_hashToBlankNodes hgroup hid
    obtain ⟨hstart, hunique⟩ := issueUnique_labelling hvalues
    refine (nDegreeLoop_meets sha256 quads _ _ (fun group hgroup id hid => mem_of_mem_hashToBlankNodes hgroup hid) _
      hstart).bind fun final hfinal => meets_pure ?_
    obtain ⟨hlabelling, hgrows, hseveral⟩ := hfinal
    have hlabelled := completeLabelling_of_labelling hlabelling fun id hid =>
      labelled_of_groups (fun group hgroup hone id hid => hgrows (hunique group hgroup hone id hid)) hseveral hid
    refine ⟨hlabelled, sortTexts _, ?_, (sortTexts_spec _).2, rfl⟩
    refine (sortTexts_spec _).1.trans (Perm.of_eq ?_)
    rw [map_map]
    refine map_congr_left fun quad hquad => ?_
    have hlabel : ∀ id ∈ quadBlankNodeIds quad, (final.get id).getD id =
        labelOf (final.issued.insertionSort fun a b => a.1 ≤ b.1) id := by
      intro id hid
      have hmem := (final.issued.perm_insertionSort fun a b => a.1 ≤ b.1).mem_iff.1 (hlabelled.labelOf_mem hquad hid)
      rw [hlabelling.valid.get_eq_some_iff.2 hmem, Option.getD_some]
    rw [Function.comp_apply, relabelQuad, Quad.rename_congr hlabel]

/-- **Complete labelling**: of quads that are written alike the first counts. The labels stand for
exactly the blank nodes of the quads that count, no two for one, and the text is made of their sorted
lines, where only labels name blank nodes. -/
theorem canonicalizeWithLabelMap_labels {sha256 : Text → Text} {order : HashOrder} {dataset : Dataset} {text : Text}
    {labels : List (Text × Text)} (h : canonicalizeWithLabelMap sha256 order dataset = .ok (text, labels)) :
    OneOfEach dataset.quads (dedupQuads [] dataset.quads) ∧
      CompleteLabelling (dedupQuads [] dataset.quads) labels ∧ (labels.map Prod.snd).Nodup ∧
      (∀ quad ∈ dedupQuads [] dataset.quads, ∀ id ∈ quadBlankNodeIds (quad.rename (labelOf labels)),
        id ∈ labels.map Prod.snd) ∧
      SortedLines (dedupQuads [] dataset.quads) labels text := by
  obtain ⟨hlabels, hlines⟩ := (canonicalizeWithLabelMap_meets sha256 order dataset).2 _ h
  exact ⟨oneOfEach_dedupQuads dataset.quads, hlabels, hlabels.values_nodup,
    fun quad hquad id hid => hlabels.relabelled hquad hid, hlines⟩

/-- A hash map that hands out its keys as they came. -/
def insertionOrder : HashOrder := ⟨fun ids => ids, List.Perm.refl⟩

/-- Two blank nodes in a circle, which only the recursion tells apart, and one quad given twice. -/
theorem canonicalizeWithLabelMap_labels_circle :
    ∃ labels, CompleteLabelling [⟨.blank ⟨['x']⟩, ⟨['p']⟩, .blank ⟨['y']⟩, .default⟩,
        ⟨.blank ⟨['y']⟩, ⟨['p']⟩, .blank ⟨['x']⟩, .default⟩] labels ∧
      labels.map Prod.fst = [['x'], ['y']] :=
  have hok : (canonicalizeWithLabelMap (fun text => text) insertionOrder
      ⟨[⟨.blank ⟨['x']⟩, ⟨['p']⟩, .blank ⟨['y']⟩, .default⟩,
        ⟨.blank ⟨['y']⟩, ⟨['p']⟩, .blank ⟨['x']⟩, .default⟩,
        ⟨.blank ⟨['x']⟩, ⟨['p']⟩, .blank ⟨['y']⟩, .default⟩]⟩).toOption =
        some ("_:c14n0 <p> _:c14n1 .\n_:c14n1 <p> _:c14n0 .\n".toList,
          [(['x'], "c14n1".toList), (['y'], "c14n0".toList)]) := by decide +kernel
  have hlabels := canonicalizeWithLabelMap_labels (Fallible.toOption_eq_some_iff.1 hok)
  ⟨_, hlabels.2.1, rfl⟩

/-- Two literals with one tag and different datatypes are written alike, so they count once. -/
theorem tagged_literals_count_once :
    ∃ text labels, canonicalizeWithLabelMap (fun text => text) insertionOrder
        ⟨[⟨.named ⟨['s']⟩, ⟨['p']⟩, .literal ⟨['x'], ⟨rdf.langString⟩, some ['e', 'n']⟩, .default⟩,
          ⟨.named ⟨['s']⟩, ⟨['p']⟩, .literal ⟨['x'], ⟨['d']⟩, some ['e', 'n']⟩, .default⟩]⟩ = .ok (text, labels) ∧
      ¬SortedLines [⟨.named ⟨['s']⟩, ⟨['p']⟩, .literal ⟨['x'], ⟨rdf.langString⟩, some ['e', 'n']⟩, .default⟩,
          ⟨.named ⟨['s']⟩, ⟨['p']⟩, .literal ⟨['x'], ⟨['d']⟩, some ['e', 'n']⟩, .default⟩] labels text := by
  refine ⟨_, _, rfl, ?_⟩
  rintro ⟨lines, hperm, -, htext⟩
  have hlength := hperm.flatten.length_eq
  rw [← htext] at hlength
  exact absurd hlength (by decide)

end AffinidiTdk.Rdf
