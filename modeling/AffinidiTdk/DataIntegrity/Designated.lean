/-
What a selection is for: the part of the document that the pointers designate, with the positions in arrays
written as numbers are, and nothing of what the other texts are read as. Lists of pointers that block
nothing, and leave nothing behind where they fail, get it.
-/
import AffinidiTdk.DataIntegrity.SelectionRuns

namespace AffinidiTdk.DataIntegrity.Pointers

open Json

/-! ## Compaction -/

mutual

/-- No array in the value has a null item. -/
def NoNullItems : Json → Prop
  | .arr items => NoNullItemsIn items
  | .obj fields => NoNullItemsOf fields
  | _ => True

def NoNullItemsIn : List Json → Prop
  | [] => True
  | item :: items => item ≠ .null ∧ NoNullItems item ∧ NoNullItemsIn items

def NoNullItemsOf : List (String × Json) → Prop
  | [] => True
  | (_, value) :: fields => NoNullItems value ∧ NoNullItemsOf fields

end

mutual

theorem compactArrays_eq_self : ∀ value : Json, NoNullItems value → compactArrays value = value
  | .arr items, h => by
    rw [NoNullItems] at h
    rw [compactArrays, compactItems_eq_self items h]
  | .obj fields, h => by
    rw [NoNullItems] at h
    rw [compactArrays, compactFields_eq_self fields h]
  | .null, _ | .bool _, _ | .int _, _ | .float _, _ | .str _, _ => by simp only [compactArrays]

theorem compactItems_eq_self : ∀ items : List Json, NoNullItemsIn items → compactItems items = items
  | [], _ => by rw [compactItems]
  | item :: items, h => by
    rw [NoNullItemsIn] at h
    rw [compactItems, if_neg h.1, compactArrays_eq_self item h.2.1, compactItems_eq_self items h.2.2]

theorem compactFields_eq_self : ∀ fields : List (String × Json), NoNullItemsOf fields → compactFields fields = fields
  | [], _ => by rw [compactFields]
  | (key, value) :: fields, h => by
    rw [NoNullItemsOf] at h
    rw [compactFields, compactArrays_eq_self value h.1, compactFields_eq_self fields h.2]

end

section Holes

variable {index : String → Option ℕ}

theorem extract_eq_null {holes : Bool} {value : Json} {paths : List Path} :
    value.extract carried index holes paths = .null ↔ value = .null ∧ [] ∈ paths := by
  by_cases hnil : [] ∈ paths
  · rw [extract_whole hnil]
    simp [hnil]
  · cases value <;> simp [extract, hnil]

mutual

theorem compactArrays_extract : ∀ (value : Json) (paths : List Path),
    NoNullItems (value.extract carried index false paths) →
    compactArrays (value.extract carried index true paths) = value.extract carried index false paths
  | .obj fields, paths, h => by
    by_cases hnil : [] ∈ paths
    · rw [extract_whole hnil] at h ⊢
      rw [extract_whole hnil, compactArrays_eq_self _ h]
    · rw [extract, if_neg hnil] at h ⊢
      rw [NoNullItems] at h
      rw [extract, if_neg hnil, compactArrays, compactFields_extractFields fields paths h]
  | .arr items, paths, h => by
    by_cases hnil : [] ∈ paths
    · rw [extract_whole hnil] at h ⊢
      rw [extract_whole hnil, compactArrays_eq_self _ h]
    · rw [extract, if_neg hnil] at h ⊢
      rw [NoNullItems] at h
      rw [extract, if_neg hnil, compactArrays, compactItems_extractItems items 0 paths h]
  | .null, paths, h | .bool _, paths, h | .int _, paths, h | .float _, paths, h | .str _, paths, h => by
    by_cases hnil : [] ∈ paths
    · rw [extract_whole hnil, extract_whole hnil]
      simp only [compactArrays]
    · simp only [extract, if_neg hnil, compactArrays, compactFields]

theorem compactFields_extractFields : ∀ (fields : List (String × Json)) (paths : List Path),
    NoNullItemsOf (extractFields carried index false fields paths) →
    compactFields (extractFields carried index true fields paths) = extractFields carried index false fields paths
  | [], _, _ => by rw [extractFields, extractFields, compactFields]
  | (key, value) :: fields, paths, h => by
    rw [extractFields] at h ⊢
    rw [extractFields]
    split_ifs at h ⊢ with hcarried hnone
    · rw [NoNullItemsOf] at h
      rw [compactFields, compactArrays_eq_self value h.1, compactFields_extractFields fields paths h.2]
    · exact compactFields_extractFields fields paths h
    · rw [NoNullItemsOf] at h
      rw [compactFields, compactArrays_extract value _ h.1, compactFields_extractFields fields paths h.2]

theorem compactItems_extractItems : ∀ (items : List Json) (i : ℕ) (paths : List Path),
    NoNullItemsIn (extractItems carried index false i items paths) →
    compactItems (extractItems carried index true i items paths) = extractItems carried index false i items paths
  | [], _, _, _ => by rw [extractItems, extractItems, compactItems]
  | item :: items, i, paths, h => by
    rw [extractItems] at h ⊢
    rw [extractItems]
    by_cases hnone : (rests (index · == some i) paths).isEmpty = true
    · simp only [hnone, if_true, Bool.false_and, Bool.false_eq_true, if_false] at h ⊢
      have hrest := compactItems_extractItems items (i + 1) paths h
      split_ifs
      · rw [compactItems, if_pos rfl, hrest]
      · exact hrest
    · rw [if_neg hnone] at h ⊢
      rw [if_neg hnone]
      rw [NoNullItemsIn] at h
      have hnull : item.extract carried index true (rests (index · == some i) paths) ≠ .null := fun heq =>
        h.1 (extract_eq_null.2 (extract_eq_null.1 heq))
      rw [compactItems, if_neg hnull, compactArrays_extract item _ h.2.1,
        compactItems_extractItems items (i + 1) paths h.2.2]

end

end Holes

/-! ## What pointers designate -/

/-- A position in an array as a pointer writes it: its digits, without a sign and without leading zeros. -/
def strictIndex (token : String) : Option ℕ := (parseIndex token).filter fun i => token == toString i

theorem parseIndex_of_strictIndex {token : String} {i : ℕ} (h : strictIndex token = some i) :
    parseIndex token = some i := (Option.filter_eq_some_iff.1 h).1

/-- The paths of the pointers proper that lead somewhere. -/
def matching (document : Json) (pointers : List String) : List Path :=
  ((pointers.filter (Text.startsWith "/")).map parsePointer).filter fun path =>
    (document.follow strictIndex path).isSome

/-- The whole document where one of the pointers is empty. Otherwise what the pointers lead to, whole, in the nodes
on the way, with their types and their ids that are no blank nodes, and the context: the items of an
array are those that some pointer goes through, in their order. -/
def designated (document : Json) (pointers : List String) : Json :=
  if "" ∈ pointers then document
  else (rootNode strictIndex document (readings pointers)).extract carried strictIndex false
    (["@context"] :: matching document pointers)

/-- Whatever the order of the pointers and their repetitions, the selection is what they designate. -/
def SelectsExactly (document : Json) (pointers : List String) : Prop :=
  ∀ others, (∀ pointer, pointer ∈ others ↔ pointer ∈ pointers) →
    selectJsonLd document others = .ok (if pointers = [] then none else some (designated document pointers))

/-! ## Pointers that leave nothing else -/

/-- Every position in an array that the path is read to name is written as a number is. -/
def Canonical : Json → Path → Prop
  | _, [] => True
  | value, token :: path => ∀ inner, indexValue value token = some inner →
      value.child strictIndex token = some inner ∧ Canonical inner path

/-- The path goes through a member that its node carries along. -/
inductive Carries : Json → Path → Prop
  | here {value inner : Json} {token : String} {path : Path} (hinner : indexValue value token = some inner)
      (hkept : keptBy value token inner = true) : Carries value (token :: path)
  | inside {value inner : Json} {token : String} {path : Path} (hinner : indexValue value token = some inner)
      (hcarries : Carries inner path) : Carries value (token :: path)

/-- What the start of a path leads to is selected anyway: a path that leads somewhere goes on from it, or has
it in its value, or a node above carries it along. -/
def Covered (document : Json) (paths : List Path) (start : Path) : Prop :=
  (∃ path ∈ paths, start <+: path ∨ path <+: start) ∨ start.head? = some "@context" ∨ Carries document start

/-- Pointers proper, with positions in arrays as numbers are written, that leave nothing where they fail. -/
structure LeavesNothing (document : Json) (pointers : List String) : Prop where
  pointer : ∀ pointer ∈ pointers, Text.startsWith "/" pointer = true
  canonical : ∀ pointer ∈ pointers, Canonical document (parsePointer pointer)
  covered : ∀ pointer ∈ pointers, document.follow parseIndex (parsePointer pointer) = none →
    ∀ start, start <+: parsePointer pointer → start ≠ [] → (document.follow parseIndex start).isSome →
      Covered document (matching document pointers) start
  noNull : NoNullItems (designated document pointers)

/-- The lists of pointers whose selection meets no placeholder, text that is no pointer, failing pointer's container
or null item. -/
def Clean (document : Json) (pointers : List String) : Prop :=
  pointers = [] ∨ OrderSafe document (readings pointers) ∧ ("" ∈ pointers ∨ LeavesNothing document pointers)

/-- The paths as the source reads them, and those that lead somewhere: the first reach no more than the
second designate. -/
structure SameSelection (value : Json) (read lead : List Path) : Prop where
  ordered : value.Ordered
  sub : ∀ path ∈ lead, path ∈ read
  canonical : ∀ path ∈ read, Canonical value path
  leads : ∀ path ∈ read, (value.follow parseIndex path).isSome → path ∈ lead
  covered : ∀ path ∈ read, value.follow parseIndex path = none → ∀ start, start <+: path → start ≠ [] →
    (value.follow parseIndex start).isSome → (∃ other ∈ lead, start <+: other ∨ other <+: start) ∨
      Carries value start

theorem SameSelection.rests {value inner : Json} {read lead : List Path} (h : SameSelection value read lead)
    (hnil : [] ∉ read) (hinner : inner.Ordered) {names names' : String → Bool}
    (hindex : ∀ token, names token = true → indexValue value token = some inner)
    (hkept : ∀ token, names token = true → keptBy value token inner = false)
    (hsub : ∀ token, names' token = true → names token = true)
    (hcanonical : ∀ token, names token = true → value.child strictIndex token = some inner → names' token = true) :
    SameRests SameSelection inner (rests names read) (rests names' lead) := by
  have hfollow {token : String} (hnames : names token = true) (path : Path) :
      value.follow parseIndex (token :: path) = inner.follow parseIndex path := by
    rw [follow, ← indexValue_eq_child, hindex token hnames]
    rfl
  have hsubset : ∀ path ∈ Json.rests names' lead, path ∈ Json.rests names read := fun path hmem => by
    obtain ⟨token, hnames, hpath⟩ := mem_rests.1 hmem
    exact mem_rests.2 ⟨token, hsub token hnames, h.sub _ hpath⟩
  have hstrict {token : String} {path : Path} (hnames : names token = true) (hpath : token :: path ∈ read) :
      names' token = true ∧ Canonical inner path := by
    obtain ⟨hchild, hrest⟩ := h.canonical _ hpath inner (hindex token hnames)
    exact ⟨hcanonical token hnames hchild, hrest⟩
  -- what is covered behind a name is covered below it
  have hcovered {token : String} {start path : Path} (hnames : names token = true) (hpath : token :: path ∈ read)
      (hnone : inner.follow parseIndex path = none) (hstart : start <+: path)
      (hsome : (inner.follow parseIndex start).isSome) :
      (∃ other ∈ Json.rests names' lead, start <+: other ∨ other <+: start) ∨ Carries inner start := by
    have hcover := h.covered _ hpath ((hfollow hnames path).trans hnone) (token :: start)
      (List.cons_prefix_cons.2 ⟨rfl, hstart⟩) (List.cons_ne_nil _ _) (by rw [hfollow hnames]; exact hsome)
    rcases hcover with ⟨other, hother, hprefix⟩ | hcarries
    · left
      cases other with
      | nil => exact absurd (h.sub _ hother) hnil
      | cons step other =>
        obtain ⟨hstep, hrest⟩ : step = token ∧ (start <+: other ∨ other <+: start) := by
          rcases hprefix with hprefix | hprefix
          · obtain ⟨hstep, hprefix⟩ := List.cons_prefix_cons.1 hprefix
            exact ⟨hstep.symm, .inl hprefix⟩
          · obtain ⟨hstep, hprefix⟩ := List.cons_prefix_cons.1 hprefix
            exact ⟨hstep, .inr hprefix⟩
        subst hstep
        exact ⟨other, mem_rests.2 ⟨step, (hstrict hnames (h.sub _ hother)).1, hother⟩, hrest⟩
    · right
      cases hcarries with
      | here hindex' hkept' =>
        cases (hindex token hnames).symm.trans hindex'
        exact absurd hkept' (by rw [hkept token hnames]; exact Bool.false_ne_true)
      | inside hindex' hinside =>
        cases (hindex token hnames).symm.trans hindex'
        exact hinside
  refine ⟨⟨fun hnone => ?_, fun hnone => ?_⟩, fun _ => ⟨hinner, hsubset, ?_, ?_, ?_⟩⟩
  · refine List.eq_nil_iff_forall_not_mem.2 fun path hpath => ?_
    rw [hnone] at hsubset
    cases hsubset path hpath
  · refine List.eq_nil_iff_forall_not_mem.2 fun path hpath => ?_
    obtain ⟨token, hnames, hread⟩ := mem_rests.1 hpath
    rw [hnone] at hcovered
    cases hleads : inner.follow parseIndex path with
    | some last =>
      have hlead := h.leads _ hread (by rw [hfollow hnames, hleads]; rfl)
      have hmem := mem_rests.2 ⟨token, (hstrict hnames hread).1, hlead⟩
      rw [hnone] at hmem
      cases hmem
    | none =>
      rcases hcovered hnames hread hleads List.nil_prefix rfl with ⟨other, hother, -⟩ | hcarries
      · cases hother
      · cases hcarries
  · intro path hpath
    obtain ⟨token, hnames, hread⟩ := mem_rests.1 hpath
    exact (hstrict hnames hread).2
  · intro path hpath hleads
    obtain ⟨token, hnames, hread⟩ := mem_rests.1 hpath
    exact mem_rests.2 ⟨token, (hstrict hnames hread).1, h.leads _ hread (by rw [hfollow hnames]; exact hleads)⟩
  · intro path hpath hnone start hstart hne hsome
    obtain ⟨token, hnames, hread⟩ := mem_rests.1 hpath
    exact hcovered hnames hread hnone hstart hsome

theorem keptBy_arr (items : List Json) (token : String) (inner : Json) :
    keptBy (.arr items) token inner = false := rfl

theorem sameSelection_descends : Descends carried parseIndex strictIndex SameSelection where
  whole {value read lead} h := ⟨fun hmem => h.leads _ hmem rfl, fun hmem => h.sub _ hmem⟩
  fields {fields read lead} h hnil key value hmem hcarried := by
    have hordered := h.ordered
    rw [Json.Ordered] at hordered
    have hlookup : fields.lookup key = some value := hordered.1.lookup hmem
    refine h.rests hnil (ordered_of_mem hordered.2 hmem) (fun token hnames => ?_) (fun token hnames => ?_)
      (fun token hnames => hnames) (fun token hnames _ => hnames)
    · rw [beq_iff_eq.1 hnames]
      exact hlookup
    · rw [beq_iff_eq.1 hnames]
      exact hcarried
  items {items read lead} h hnil i value hi := by
    have hordered := h.ordered
    rw [Json.Ordered] at hordered
    refine h.rests hnil (ordered_of_getElem? hordered hi) (fun token hnames => ?_)
      (fun token _ => keptBy_arr items token value) (fun token hnames => ?_) (fun token hnames hchild => ?_)
    · rw [indexValue, beq_iff_eq.1 hnames]
      exact hi
    · exact beq_iff_eq.2 (parseIndex_of_strictIndex (beq_iff_eq.1 hnames))
    · obtain ⟨j, hj, -⟩ := Option.bind_eq_some_iff.1 hchild
      rw [hj, ← parseIndex_of_strictIndex hj]
      exact hnames

end AffinidiTdk.DataIntegrity.Pointers
