/-
Exact selections: a list of pointers gets what it designates, in any order, when none of them blocks another
and none leaves anything where it fails. A pointer into an item that a later one has skipped panics.
-/
import AffinidiTdk.DataIntegrity.Designated

namespace AffinidiTdk.DataIntegrity.Pointers

open List Option
open Json Fallible

/-! ## The document and its node -/

theorem child_of_strictIndex {value inner : Json} {token : String} (h : value.child strictIndex token = some inner) :
    value.child parseIndex token = some inner := by
  cases value with
  | obj fields => exact h
  | arr items =>
    obtain ⟨i, hi, hitem⟩ := bind_eq_some_iff.1 h
    exact bind_eq_some_iff.2 ⟨i, parseIndex_of_strictIndex hi, hitem⟩
  | _ => cases h

theorem follow_of_canonical {value last : Json} {path : Path} (hcanonical : Canonical value path)
    (h : value.follow parseIndex path = some last) : value.follow strictIndex path = some last := by
  induction path generalizing value with
  | nil => exact h
  | cons token path ih =>
    obtain ⟨inner, hinner, hrest⟩ := bind_eq_some_iff.1 h
    obtain ⟨hchild, hbelow⟩ := hcanonical inner ((indexValue_eq_child _ _).trans hinner)
    exact bind_eq_some_iff.2 ⟨inner, hchild, ih hbelow hrest⟩

theorem rootNode_congr {index index' : String → Option ℕ} {document : Json} {paths others : List Path}
    (hpaths : ∀ path, path ∈ paths ↔ path ∈ others) (hchild : ∀ token path, token :: path ∈ paths →
      document.child index token = document.child index' token) :
    rootNode index document paths = rootNode index' document others := by
  have hempty : Fields.Sorted [] := .nil
  have hother : (Json.obj ((firstMembers index document paths).foldl
      (fun fields member => Fields.insert member.1 member.2 fields) [])) =
      .obj ((firstMembers index' document others).foldl
        (fun fields member => Fields.insert member.1 member.2 fields) []) := by
    refine congrArg Json.obj ((hempty.foldl_insert _).ext (hempty.foldl_insert _) fun key => ?_)
    rw [lookup_foldl_insert_of_same (fun member hmember => (mem_firstMembers.1 hmember).2),
      lookup_foldl_insert_of_same (fun member hmember => (mem_firstMembers.1 hmember).2)]
    have hmem {index : String → Option ℕ} {paths : List Path} :
      key ∈ Fields.keys (firstMembers index document paths) ↔
        (∃ path, key :: path ∈ paths) ∧ (document.child index key).isSome := by
      constructor
      · intro h
        obtain ⟨member, hmember, rfl⟩ := List.mem_map.1 h
        obtain ⟨hpath, hinner⟩ := mem_firstMembers.1 hmember
        exact ⟨hpath, isSome_of_eq_some hinner⟩
      · rintro ⟨hpath, hinner⟩
        obtain ⟨inner, hinner⟩ := isSome_iff_exists.1 hinner
        exact List.mem_map.2 ⟨(key, inner), mem_firstMembers.2 ⟨hpath, hinner⟩, rfl⟩
    by_cases hpath : ∃ path, key :: path ∈ paths
    · obtain ⟨path, hpath⟩ := hpath
      have hsame := hchild key path hpath
      have hiff : key ∈ Fields.keys (firstMembers index document paths) ↔
          key ∈ Fields.keys (firstMembers index' document others) := by
        rw [hmem, hmem, hsame]
        simp only [hpaths]
      simp only [hiff, hsame]
    · rw [if_neg fun h => hpath (hmem.1 h).1, if_neg fun h => hpath ?_]
      obtain ⟨path, hother⟩ := (hmem.1 h).1
      exact ⟨path, (hpaths _).2 hother⟩
  cases document with
  | obj fields => rfl
  | _ => exact hother

/-! ## Exact selections -/

theorem parsePointer_ne_nil {pointer : String} (h : Text.startsWith "/" pointer = true) :
    parsePointer pointer ≠ [] := by
  intro hnil
  obtain ⟨rest, hrest⟩ := isPrefixOf_iff_prefix.1 h
  have hslash : '/' ∈ pointer.toList := by rw [← hrest]; exact mem_cons_self
  have hsplit : (Text.split '/' pointer).drop 1 = [] := map_eq_nil_iff.1 hnil
  rcases hparts : Text.split '/' pointer with _ | ⟨part, parts⟩
  · exact Text.split_ne_nil _ _ hparts
  · rw [hparts] at hsplit
    have hjoin := Text.join_split '/' pointer
    rw [hparts, show parts = [] from hsplit] at hjoin
    have hpart : part = pointer := by
      rw [← hjoin]
      simp [Text.join]
    have hnot := Text.not_mem_of_mem_split
      (show part ∈ Text.split '/' pointer by rw [hparts]; exact mem_cons_self)
    rw [hpart] at hnot
    exact hnot hslash

theorem follow_rootNode {index : String → Option ℕ} {document : Json} {paths : List Path} {token : String}
    {path : Path}
    (hpath : token :: path ∈ paths) (rest : Path) :
    (rootNode index document paths).follow index (token :: rest) = document.follow index (token :: rest) := by
  rw [follow, follow, child_rootNode hpath]

theorem indexValue_rootNode {document : Json} {paths : List Path} {token : String} {path : Path}
    (hpath : token :: path ∈ paths) :
    indexValue (rootNode parseIndex document paths) token = indexValue document token := by
  rw [indexValue_eq_child, indexValue_eq_child, child_rootNode hpath]

theorem canonical_rootNode {document inner : Json} {paths : List Path} {token : String}
    (h : indexValue (rootNode parseIndex document paths) token = some inner) :
    (rootNode parseIndex document paths).child strictIndex token = some inner := by
  obtain ⟨fields, hfields⟩ := rootNode_eq_obj parseIndex document paths
  rw [hfields] at h ⊢
  exact h

theorem LeavesNothing.sameSelection {document : Json} {pointers others : List String} (hdocument : document.Ordered)
    (h : LeavesNothing document pointers) (hmem : ∀ pointer, pointer ∈ others ↔ pointer ∈ pointers) :
    SameSelection (rootNode parseIndex document (readings others))
      ((others.map parsePointer).reverse ++ [["@context"]]) (["@context"] :: matching document pointers) := by
  -- what is read: the pointers, and the context
  have hread {path : Path} (hpath : path ∈ (others.map parsePointer).reverse ++ [["@context"]]) :
      (∃ token rest, path = token :: rest ∧ path ∈ readings others ∧ ∃ pointer ∈ pointers, parsePointer pointer =
        path) ∨
        path = ["@context"] := by
    rcases mem_append.1 hpath with hpath | hpath
    · left
      obtain ⟨pointer, hpointer, rfl⟩ := List.mem_map.1 (mem_reverse.1 hpath)
      have hne := parsePointer_ne_nil (h.pointer pointer ((hmem pointer).1 hpointer))
      obtain ⟨token, rest, heq⟩ := exists_cons_of_ne_nil hne
      exact ⟨token, rest, heq, mem_filter.2 ⟨List.mem_map_of_mem hpointer, decide_eq_true hne⟩, pointer,
        (hmem pointer).1 hpointer, rfl⟩
    · exact .inr (mem_singleton.1 hpath)
  refine ⟨rootNode_ordered hdocument, ?_, ?_, ?_, ?_⟩
  · intro path hpath
    rcases mem_cons.1 hpath with rfl | hpath
    · exact mem_append_right _ mem_cons_self
    · obtain ⟨hpath, -⟩ := mem_filter.1 hpath
      obtain ⟨pointer, hpointer, rfl⟩ := List.mem_map.1 hpath
      refine mem_append_left _ (mem_reverse.2 (List.mem_map_of_mem ?_))
      exact (hmem pointer).2 (mem_filter.1 hpointer).1
  · intro path hpath
    rcases hread hpath with ⟨token, rest, rfl, hreading, pointer, hpointer, hparse⟩ | rfl
    · have hcanonical := h.canonical pointer hpointer
      rw [hparse] at hcanonical
      intro inner hinner
      refine ⟨canonical_rootNode hinner, (hcanonical inner ?_).2⟩
      rw [← indexValue_rootNode hreading]
      exact hinner
    · intro inner hinner
      exact ⟨canonical_rootNode hinner, trivial⟩
  · intro path hpath hleads
    rcases hread hpath with ⟨token, rest, rfl, hreading, pointer, hpointer, hparse⟩ | rfl
    · refine mem_cons_of_mem _ (mem_filter.2 ⟨List.mem_map.2 ⟨pointer, ?_, hparse⟩, ?_⟩)
      · exact mem_filter.2 ⟨hpointer, h.pointer pointer hpointer⟩
      · rw [follow_rootNode hreading] at hleads
        obtain ⟨last, hlast⟩ := isSome_iff_exists.1 hleads
        have hcanonical := h.canonical pointer hpointer
        rw [hparse] at hcanonical
        exact isSome_of_eq_some (follow_of_canonical hcanonical hlast)
    · exact mem_cons_self
  · intro path hpath hnone start hstart hne hsome
    obtain ⟨step, start, rfl⟩ := exists_cons_of_ne_nil hne
    rcases hread hpath with ⟨token, rest, rfl, hreading, pointer, hpointer, hparse⟩ | rfl
    · obtain rfl : step = token := (cons_prefix_cons.1 hstart).1
      rw [follow_rootNode hreading] at hnone hsome
      rw [← hparse] at hnone hstart
      rcases h.covered pointer hpointer hnone _ hstart hne hsome with ⟨other, hother, hprefix⟩ | hcontext | hcarries
      · exact .inl ⟨other, mem_cons_of_mem _ hother, hprefix⟩
      · cases hcontext
        exact .inl ⟨["@context"], mem_cons_self, .inr (cons_prefix_cons.2 ⟨rfl, nil_prefix⟩)⟩
      · right
        cases hcarries with
        | here hinner hkept =>
          cases document with
          | obj fields => exact .here hinner hkept
          | _ => cases hkept
        | inside hinner hcarries =>
          exact .inside ((indexValue_rootNode hreading).trans hinner) hcarries
    · obtain ⟨hstep, hrest⟩ := cons_prefix_cons.1 hstart
      rw [hstep, prefix_nil.1 hrest, hnone] at hsome
      cases hsome

/-- Lists of pointers that meet none of the defects select exactly what they designate. -/
theorem selectsExactly_of_clean {document : Json} {pointers : List String} (hdocument : document.Ordered)
    (h : Clean document pointers) : SelectsExactly document pointers := by
  intro others hmem
  by_cases hempty : pointers = []
  · have hothers : others = [] := eq_nil_iff_forall_not_mem.2 fun pointer hpointer => by
      rw [hempty] at hmem
      cases (hmem pointer).1 hpointer
    rw [hothers, if_pos hempty]
    rfl
  obtain ⟨hsafe, hlist⟩ := h.resolve_left hempty
  have hothers : others ≠ [] := fun hnil => hempty (eq_nil_iff_forall_not_mem.2 fun pointer hpointer => by
    rw [hnil] at hmem
    cases (hmem pointer).2 hpointer)
  have hreadings (path : Path) : path ∈ readings others ↔ path ∈ readings pointers := by
    unfold readings
    simp only [mem_filter, List.mem_map, hmem]
  have hroot := @rootNode_congr parseIndex parseIndex document _ _ hreadings fun _ _ _ => rfl
  have hsafe' : OrderSafe document (readings others) := fun other hother path hpath hblocks =>
    hsafe other ((hreadings _).1 hother) path ((hreadings _).1 hpath) (hroot ▸ hblocks)
  rw [selectJsonLd_eq hdocument hsafe' hothers, if_neg hempty, designated]
  by_cases hwhole : "" ∈ pointers
  · have hparsed : [] ∈ others.map parsePointer := List.mem_map.2 ⟨"", (hmem "").2 hwhole, by decide⟩
    rw [if_pos hwhole, if_pos hparsed]
  have hleaves := hlist.resolve_left hwhole
  have hparsed : [] ∉ others.map parsePointer := fun hmem' => by
    obtain ⟨pointer, hpointer, hnil⟩ := List.mem_map.1 hmem'
    exact parsePointer_ne_nil (hleaves.pointer pointer ((hmem pointer).1 hpointer)) hnil
  have hstrict : rootNode strictIndex document (readings pointers) =
    rootNode parseIndex document (readings others) := by
    refine rootNode_congr (fun path => (hreadings path).symm) fun token path hpath => ?_
    obtain ⟨pointer, hpointer, hparse⟩ := List.mem_map.1 (mem_filter.1 hpath).1
    have hcanonical := hleaves.canonical pointer hpointer
    rw [hparse] at hcanonical
    cases hchild : document.child parseIndex token with
    | some inner => exact (hcanonical inner ((indexValue_eq_child _ _).trans hchild)).1
    | none =>
      cases hchild' : document.child strictIndex token with
      | none => rfl
      | some inner => exact absurd (hchild.symm.trans (child_of_strictIndex hchild')) (by simp)
  have hnull := hleaves.noNull
  rw [designated, if_neg hwhole] at hnull
  rw [if_neg hwhole, if_neg hparsed, reached,
    sameSelection_descends.extract_eq _ (hleaves.sameSelection hdocument hmem), ← hstrict,
    compactArrays_extract _ _ hnull]

/-- A document, a sparse position in one of its arrays and a pointer that leads nowhere. -/
def tagged : Json := .obj [("id", .str "urn:1"), ("name", .str "Ann"), ("tags", .arr [.str "a", .str "b"])]

theorem tagged_selectsExactly : SelectsExactly tagged ["/tags/1", "/name", "/nick"] := by
  have hreadings : readings ["/tags/1", "/name", "/nick"] = [["tags", "1"], ["name"], ["nick"]] := by decide +kernel
  have hdesignated : designated tagged ["/tags/1", "/name", "/nick"] =
      .obj [("id", .str "urn:1"), ("name", .str "Ann"), ("tags", .arr [.str "b"])] := by decide +kernel
  refine selectsExactly_of_clean ?_ (.inr ⟨?_, .inr ⟨?_, ?_, ?_, ?_⟩⟩)
  · exact ⟨by unfold Json.Fields.Sorted; decide +kernel, trivial, trivial, ⟨trivial, trivial, trivial⟩, trivial⟩
  · -- No path goes on below an item.
    rw [hreadings]
    intro other _ path hpath hblocks
    simp only [mem_cons, not_mem_nil, or_false] at hpath
    rcases hpath with rfl | rfl | rfl
    · cases hblocks with
      | inside _ _ _ hblocks =>
        cases hblocks with
        | skipped _ _ _ _ hlast => exact absurd rfl hlast
        | inside _ _ _ hblocks => cases hblocks
    · cases hblocks with
      | inside _ _ _ hblocks => cases hblocks
    · cases hblocks with
      | inside _ _ _ hblocks => cases hblocks
  · decide
  · intro pointer hpointer
    simp only [mem_cons, not_mem_nil, or_false] at hpointer
    rcases hpointer with rfl | rfl | rfl
    · rw [show parsePointer "/tags/1" = ["tags", "1"] by decide +kernel]
      intro inner hinner
      obtain rfl : Json.arr [.str "a", .str "b"] = inner := some.inj hinner
      refine ⟨by decide +kernel, fun last hlast => ⟨?_, trivial⟩⟩
      obtain rfl : Json.str "b" = last :=
        some.inj ((show _ = some (Json.str "b") by decide +kernel).symm.trans hlast)
      decide +kernel
    · rw [show parsePointer "/name" = ["name"] by decide +kernel]
      intro inner hinner
      exact ⟨hinner, trivial⟩
    · rw [show parsePointer "/nick" = ["nick"] by decide +kernel]
      intro inner hinner
      exact ⟨hinner, trivial⟩
  · -- The one pointer that leads nowhere fails at its first token.
    intro pointer hpointer hnone start hstart hne hsome
    simp only [mem_cons, not_mem_nil, or_false] at hpointer
    rcases hpointer with rfl | rfl | rfl
    · exact absurd hnone (by decide +kernel)
    · exact absurd hnone (by decide +kernel)
    · rw [show parsePointer "/nick" = ["nick"] by decide +kernel] at hstart
      obtain ⟨step, start, rfl⟩ := exists_cons_of_ne_nil hne
      obtain ⟨rfl, hrest⟩ := cons_prefix_cons.1 hstart
      cases prefix_nil.1 hrest
      exact absurd hsome (by decide +kernel)
  · rw [hdesignated]
    simp [NoNullItems, NoNullItemsOf, NoNullItemsIn]

def nested : Json :=
  .obj [("a", .arr [.obj [("b", .obj [("c", .int 1)])], .obj [("b", .obj [("c", .int 2)])]])]

/-- The second pointer goes into the placeholder of the first item, where it makes the selection panic; the same
pointers in the other order select the document, and a text that is no pointer does as well. -/
theorem nested_panics :
    selectJsonLd nested ["/a/1/b/c", "/a/0/b/c"] = .error "intermediate exists" ∧
      selectJsonLd nested ["/a/0/b/c", "/a/1/b/c"] = .ok (some nested) ∧
      selectJsonLd nested ["a"] = .ok (some nested) ∧ ¬SelectsExactly nested ["/a/1/b/c", "/a/0/b/c"] := by
  have hpanic : selectJsonLd nested ["/a/1/b/c", "/a/0/b/c"] = .error "intermediate exists" := by decide +kernel
  refine ⟨hpanic, by decide +kernel, by decide +kernel, fun h => ?_⟩
  have hsame := h _ fun _ => Iff.rfl
  rw [hpanic] at hsame
  cases hsame

end AffinidiTdk.DataIntegrity.Pointers
