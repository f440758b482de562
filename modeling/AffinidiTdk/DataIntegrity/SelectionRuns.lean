/-
Runs of the selection: a pointer that meets no placeholder of a skipped item adds exactly what it selects,
so the selection of a list without pointers that block one another is the part of the document that
their paths select, whatever their order.
-/
import AffinidiTdk.DataIntegrity.Selection
import AffinidiTdk.Lib.Except

namespace AffinidiTdk.DataIntegrity.Pointers

open List Option
open Json Fallible

variable {value inner : Json} {token : String} {path : Path} {paths : List Path}

/-! ## One pointer -/

theorem selectPath_self (hvalue : value.Ordered) (hpath : path ≠ []) : selectPath value path value = .ok value := by
  induction path generalizing value with
  | nil => exact absurd rfl hpath
  | cons token path ih =>
    rw [selectPath]
    cases h : indexValue value token with
    | none => rfl
    | some inner =>
      have hinner := ordered_of_indexValue hvalue h
      show (if path = [] then _ else _) = _
      split_ifs with hlast
      · have hthere : ∃ paths, indexValue value token = some (reached inner paths) :=
          ⟨[[]], by rw [h, reached_whole mem_cons_self]⟩
        rw [mergeValue_eq hinner (.inr (.inr hthere)), setIndex_indexValue hvalue h]
      · have hensure : ensureIntermediate value token inner = value := by
          rw [ensureIntermediate, h]
          rfl
        simp only [hensure, h]
        rw [ih hinner hlast, ok_bind, setIndex_indexValue hvalue h]

/-- The path meets no placeholder of a skipped item on its way: `paths` are those selected before. -/
def Clear : Json → List Path → Path → Prop
  | _, _, [] => True
  | value, paths, token :: path => [] ∈ paths ∨ ∀ inner, indexValue value token = some inner →
      keptBy value token inner = true ∨
        (path = [] ∨ rests (sameStep value token) paths ≠ [] ∨ ¬Skipped value paths token) ∧
          Clear inner (rests (sameStep value token) paths) path

/-- A path that meets no placeholder adds exactly what it selects. -/
theorem selectPath_reached (hvalue : value.Ordered) (hpath : path ≠ []) (hclear : Clear value paths path) :
    selectPath value path (reached value paths) = .ok (reached value (path :: paths)) := by
  induction path generalizing value paths with
  | nil => exact absurd rfl hpath
  | cons token path ih =>
    by_cases hnil : [] ∈ paths
    · rw [reached_whole hnil, reached_whole (mem_cons_of_mem _ hnil), selectPath_self hvalue hpath]
    rw [selectPath]
    cases h : indexValue value token with
    | none => rw [reached_cons_of_none h]
    | some inner =>
      have hinner := ordered_of_indexValue hvalue h
      have hread := indexValue_reached hvalue hnil h
      have hindexes := indexes_reached hnil h
      have hclear' := (hclear.resolve_left hnil) inner h
      rw [reached_cons hvalue hnil h]
      show (if path = [] then _ else _) = _
      by_cases hkept : keptBy value token inner = true
      · -- The member is there in full, as its node carries it along.
        rw [if_pos hkept] at hread ⊢
        have hthere : ∃ inside, indexValue (reached value paths) token = some (reached inner inside) :=
          ⟨[[]], by rw [hread, reached_whole mem_cons_self]⟩
        split_ifs with hlast
        · rw [mergeValue_eq hinner (.inr (.inr hthere))]
        · have hensure : ensureIntermediate (reached value paths) token inner = reached value paths := by
            rw [ensureIntermediate, hread]
            rfl
          simp only [hensure, hread]
          rw [selectPath_self hinner hlast, ok_bind]
      · rw [if_neg hkept] at hread ⊢
        obtain ⟨hplace, hbelow⟩ := hclear'.resolve_left hkept
        by_cases hnone : rests (sameStep value token) paths = []
        · rw [if_pos hnone] at hread
          by_cases hlast : path = []
          · have hmerge := @mergeValue_eq inner token (reached value paths) hinner
              (hread.imp id fun hnull => .inl hnull.1)
            rw [if_pos hlast, hmerge, hlast, reached_whole mem_cons_self]
          · -- Nothing is there: a placeholder would be that of a skipped item.
            have habsent : indexValue (reached value paths) token = none :=
              hread.resolve_right fun hnull =>
                (hplace.resolve_left hlast).elim (fun h => h hnone) fun h => h hnull.2
            have hensure : ensureIntermediate (reached value paths) token inner =
                setIndex (reached value paths) token (reached inner []) := by
              rw [ensureIntermediate, habsent]
              exact intermediate_eq hinner token _
            rw [hnone] at hbelow ⊢
            simp only [if_neg hlast, hensure, indexValue_setIndex hindexes]
            rw [ih hinner hlast hbelow, ok_bind, setIndex_setIndex]
        · rw [if_neg hnone] at hread
          by_cases hlast : path = []
          · have hmerge := @mergeValue_eq inner token (reached value paths) hinner (.inr (.inr ⟨_, hread⟩))
            rw [if_pos hlast, hmerge, hlast, reached_whole mem_cons_self]
          · have hensure : ensureIntermediate (reached value paths) token inner = reached value paths := by
              rw [ensureIntermediate, hread]
              rfl
            simp only [if_neg hlast, hensure, hread]
            rw [ih hinner hlast hbelow, ok_bind]

/-- The first path leaves a placeholder where the second goes into an item. -/
inductive Blocks : Json → Path → Path → Prop
  | skipped {items : List Json} {later token : String} {other path : Path} {i n : ℕ}
      (hlater : parseIndex later = some n)
      (hitem : items[n]?.isSome) (htoken : parseIndex token = some i) (hlt : i < n) (hpath : path ≠ []) :
      Blocks (.arr items) (later :: other) (token :: path)
  | inside {value inner : Json} {step token : String} {other path : Path}
      (hinner : indexValue value token = some inner)
      (hkept : keptBy value token inner = false) (hstep : sameStep value token step = true)
      (hblocks : Blocks inner other path) : Blocks value (step :: other) (token :: path)

theorem clear_of_not_blocks (h : ∀ other ∈ paths, ¬Blocks value other path) : Clear value paths path := by
  induction path generalizing value paths with
  | nil => exact trivial
  | cons token path ih =>
    refine .inr fun inner hinner => ?_
    by_cases hkept : keptBy value token inner = true
    · exact .inl hkept
    refine .inr ⟨?_, ih fun other hother hblocks => ?_⟩
    · by_cases hlast : path = []
      · exact .inl hlast
      refine .inr (.inr fun hskipped => ?_)
      cases value with
      | arr items =>
        obtain ⟨i, n, hi, hlt, hn, hthrough⟩ := hskipped
        obtain ⟨later, other, hlater, hmem⟩ := rests_ne_nil.1 hthrough
        exact h _ hmem (.skipped (beq_iff_eq.1 hlater) hn hi hlt hlast)
      | _ => exact hskipped
    · obtain ⟨step, hstep, hmem⟩ := mem_rests.1 hother
      exact h _ hmem (.inside hinner (Bool.eq_false_iff.2 hkept) hstep hblocks)

/-! ## The document as a node -/

/-- What the first tokens of the paths name, under these tokens. -/
def firstMembers (index : String → Option ℕ) (document : Json) (paths : List Path) : Fields :=
  paths.filterMap fun path => path.head?.bind fun token => (document.child index token).map fun inner => (token,
    inner)

/-- A selection is an object: for a document that is none, the first token of a path is the key of what
it names. -/
def rootNode (index : String → Option ℕ) (document : Json) (paths : List Path) : Json :=
  match document with
  | .obj fields => .obj fields
  | other => .obj ((firstMembers index other paths).foldl
      (fun fields member => Fields.insert member.1 member.2 fields) [])

variable {index : String → Option ℕ} {document : Json}

theorem mem_firstMembers {key : String} : (key, inner) ∈ firstMembers index document paths ↔
    (∃ path, key :: path ∈ paths) ∧ document.child index key = some inner := by
  unfold firstMembers
  rw [mem_filterMap]
  constructor
  · rintro ⟨path, hpath, h⟩
    cases path with
    | nil => cases h
    | cons token path =>
      obtain ⟨member, hmember, heq⟩ := map_eq_some_iff.1 h
      cases heq
      exact ⟨⟨path, hpath⟩, hmember⟩
  · rintro ⟨⟨path, hpath⟩, h⟩
    refine ⟨key :: path, hpath, ?_⟩
    show (document.child index key).map _ = _
    rw [h]
    rfl

variable {members : Fields}

theorem lookup_foldl_insert_of_same {given : String → Option Json}
    (h : ∀ member ∈ members, given member.1 = some member.2) (fields : Fields) (key : String) :
    (members.foldl (fun fields member => Fields.insert member.1 member.2 fields) fields).lookup key = if key ∈
    members.keys then given key else fields.lookup key := by
  induction members generalizing fields with
  | nil => rfl
  | cons member members ih =>
    rw [foldl_cons, ih (fun other hother => h other (mem_cons_of_mem _ hother)), Fields.lookup_insert_eq]
    have hmem : key ∈ Fields.keys (member :: members) ↔ key = member.1 ∨ key ∈ Fields.keys members := mem_cons
    by_cases hrest : key ∈ Fields.keys members
    · rw [if_pos hrest, if_pos (hmem.2 (.inr hrest))]
    · rw [if_neg hrest]
      by_cases hkey : key = member.1
      · rw [if_pos hkey, if_pos (hmem.2 (.inl hkey)), hkey, h member mem_cons_self]
      · rw [if_neg hkey, if_neg fun hor => (hmem.1 hor).elim hkey hrest]

theorem child_rootNode (hpath : token :: path ∈ paths) : (rootNode index document paths).child index token =
    document.child index token := by
  have hother : List.lookup token ((firstMembers index document paths).foldl
      (fun fields member => Fields.insert member.1 member.2 fields) []) = document.child index token := by
    rw [lookup_foldl_insert_of_same (fun member hmember => (mem_firstMembers.1 hmember).2)]
    split_ifs with hmem
    · rfl
    · cases h : document.child index token with
      | none => rfl
      | some inner =>
        exact absurd (mem_map.2 ⟨(token, inner), mem_firstMembers.2 ⟨⟨path, hpath⟩, h⟩, rfl⟩) hmem
  cases document with
  | obj fields => rfl
  | _ => exact hother

theorem orderedFields_of_mem {fields : Fields} (h : ∀ member ∈ fields, member.2.Ordered) : OrderedFields fields := by
  induction fields with
  | nil => rw [OrderedFields]; exact trivial
  | cons member fields ih =>
    rw [OrderedFields]
    exact ⟨h member mem_cons_self, ih fun other hother => h other (mem_cons_of_mem _ hother)⟩

theorem mem_foldl_insert {fields : Fields} {member : String × Json}
    (h : member ∈ members.foldl (fun fields member => Fields.insert member.1 member.2 fields) fields) :
    member ∈ members ∨ member ∈ fields := by
  induction members generalizing fields with
  | nil => exact .inr h
  | cons first members ih =>
    rcases ih h with hmem | hmem
    · exact .inl (mem_cons_of_mem _ hmem)
    · rcases OrdMap.mem_insertEntry hmem with rfl | hold
      · exact .inl mem_cons_self
      · exact .inr hold

theorem rootNode_ordered (h : document.Ordered) : (rootNode parseIndex document paths).Ordered := by
  have hother : (Json.obj ((firstMembers parseIndex document paths).foldl
      (fun fields member => Fields.insert member.1 member.2 fields) [])).Ordered := by
    rw [Json.Ordered]
    have hempty : Fields.Sorted [] := .nil
    refine ⟨hempty.foldl_insert _, orderedFields_of_mem fun member hmember => ?_⟩
    rcases mem_foldl_insert hmember with hmem | hmem
    · exact ordered_of_indexValue h ((indexValue_eq_child _ _).trans (mem_firstMembers.1 hmem).2)
    · cases hmem
  cases document with
  | obj fields => exact h
  | _ => exact hother

theorem rootNode_eq_obj (index : String → Option ℕ) (document : Json) (paths : List Path) :
    ∃ fields, rootNode index document paths = .obj fields := by
  cases document with
  | obj fields => exact ⟨fields, rfl⟩
  | _ => exact ⟨_, rfl⟩

theorem selectPath_rootNode (hpath : path ∈ paths) (selection : Json) : selectPath document path selection =
    selectPath (rootNode parseIndex document paths) path selection := by
  cases path with
  | nil => rfl
  | cons token path =>
    rw [selectPath, selectPath, indexValue_eq_child, indexValue_eq_child, child_rootNode hpath]

/-! ## All pointers -/

theorem lookup_startSelection (document : Json) (key : String) :
    (startSelection document).lookup key = ((document.get? key).filter (carried key)).or
      (if key = "@context" then document.get? key else none) := by
  unfold startSelection
  cases hcontext : document.get? "@context" with
  | none =>
    show (initSelection [] document).lookup key = _
    rw [lookup_initSelection]
    split_ifs with hkey
    · rw [hkey, hcontext]
      rfl
    · rfl
  | some ctx =>
    show (initSelection (Fields.insert "@context" ctx []) document).lookup key = _
    rw [lookup_initSelection, Fields.lookup_insert_eq]
    split_ifs with hkey
    · rw [hkey, hcontext]
    · rfl

theorem startSelection_sorted (document : Json) : Fields.Sorted (startSelection document) := by
  have hempty : Fields.Sorted [] := .nil
  unfold startSelection
  cases document.get? "@context" with
  | none => exact initSelection_sorted hempty document
  | some ctx => exact initSelection_sorted (hempty.insert _ _) document

theorem not_carried_of_parseIndex {key : String} (h : (parseIndex key).isSome) (value : Json) :
    carried key value = false ∧ key ≠ "@context" := by
  have hnames : ∀ name ∈ ["@context", "@id", "id", "@type", "type"], parseIndex name = none := by decide
  have hne (name : String) (hname : name ∈ ["@context", "@id", "id", "@type", "type"]) : key ≠ name := fun heq => by
    rw [heq, hnames name hname] at h
    cases h
  refine ⟨?_, hne _ (by simp)⟩
  rw [carried, beq_false_of_ne (hne "@id" (by simp)), beq_false_of_ne (hne "id" (by simp)),
    beq_false_of_ne (hne "@type" (by simp)), beq_false_of_ne (hne "type" (by simp))]
  rfl

theorem startSelection_eq (h : document.Ordered) : .obj (startSelection document) =
    reached (rootNode parseIndex document paths) [["@context"]] := by
  have hnil : [] ∉ [["@context"]] := by simp
  have hroot := @rootNode_ordered paths document h
  have hcontext : rests (· == "@context") [["@context"]] = [[]] := rfl
  obtain ⟨fields, hfields⟩ := rootNode_eq_obj parseIndex document paths
  rw [hfields] at hroot ⊢
  rw [Json.Ordered] at hroot
  rw [reached_obj hnil]
  refine congrArg Json.obj ((startSelection_sorted document).ext (extractFields_sorted hroot.1) fun key => ?_)
  rw [lookup_startSelection, lookup_extractFields hroot.1]
  -- a member is there from the start if it is carried or the context
  have hmember (value : Json) : (if carried key value = true then some value
      else if (rests (· == key) [["@context"]]).isEmpty = true then none
      else some (extract carried parseIndex true value (rests (· == key) [["@context"]]))) =
      if carried key value = true ∨ key = "@context" then some value else none := by
    by_cases hkey : key = "@context"
    · subst hkey
      rw [hcontext, extract_whole mem_cons_self]
      simp
    · have hnone : rests (· == key) [["@context"]] = [] :=
        @rests_cons_of_not (· == key) "@context" (beq_false_of_ne fun heq => hkey heq.symm) [] []
      rw [hnone]
      simp [hkey]
  simp only [hmember]
  have hother (hnone : document.get? key = none) (hkeys : ∀ value, fields.lookup key = some value →
      (parseIndex key).isSome) : ((document.get? key).filter (carried key)).or
        (if key = "@context" then document.get? key else none) = (fields.lookup key).bind fun value =>
          if carried key value = true ∨ key = "@context" then some value else none := by
    cases hlookup : fields.lookup key with
    | none => rw [hnone]; exact ite_self none
    | some value =>
      obtain ⟨hcarried, hkey⟩ := not_carried_of_parseIndex (hkeys value hlookup) value
      rw [hnone, if_neg hkey]
      show none = if carried key value = true ∨ key = "@context" then some value else none
      rw [if_neg fun hor => hor.elim (fun h => Bool.false_ne_true (hcarried.symm.trans h)) hkey]
  cases document with
  | obj members =>
    obtain rfl : members = fields := Json.obj.inj hfields
    show ((members.lookup key).filter (carried key)).or (if key = "@context" then members.lookup key else none) = _
    cases members.lookup key with
    | none => exact ite_self none
    | some value =>
      show (if carried key value = true then some value else none).or
        (if key = "@context" then some value else none) =
        if carried key value = true ∨ key = "@context" then some value else none
      by_cases hcarried : carried key value = true
      · simp only [hcarried, true_or, if_true, some_or]
      · simp only [hcarried, false_or, if_false, none_or, Bool.false_eq_true]
  | arr items =>
    refine hother rfl fun value hlookup => ?_
    cases hfields
    rw [lookup_foldl_insert_of_same (fun member hmember => (mem_firstMembers.1 hmember).2)] at hlookup
    split_ifs at hlookup
    · obtain ⟨i, hi, -⟩ := bind_eq_some_iff.1 hlookup
      exact isSome_of_eq_some hi
    · cases hlookup
  | _ =>
    refine hother rfl fun value hlookup => ?_
    cases hfields
    rw [lookup_foldl_insert_of_same (fun member hmember => (mem_firstMembers.1 hmember).2)] at hlookup
    split_ifs at hlookup
    · cases hlookup
    · cases hlookup

/-- The paths that the pointers are read as: a text without a slash gives none. -/
def readings (pointers : List String) : List Path := (pointers.map parsePointer).filter fun path => path ≠ []

/-- No two paths block each other, but in the context, which is there in full. -/
def OrderSafe (document : Json) (paths : List Path) : Prop :=
  ∀ other ∈ paths, ∀ path ∈ paths, Blocks (rootNode parseIndex document paths) other path → path.head? =
    some "@context"

variable {before : List Path}

theorem clear_of_orderSafe (h : OrderSafe document paths) (hpath : path ∈ paths)
    (hbefore : ∀ other ∈ before, other ∈ paths ∨ other = ["@context"]) (hcontext : ["@context"] ∈ before) :
    Clear (rootNode parseIndex document paths) before path := by
  obtain ⟨fields, hfields⟩ := rootNode_eq_obj parseIndex document paths
  by_cases hhead : path.head? = some "@context"
  · cases path with
    | nil => exact trivial
    | cons token path =>
      cases hhead
      rw [hfields]
      have hbelow : [] ∈ rests (sameStep (.obj fields) "@context") before :=
        mem_rests.2 ⟨"@context", beq_self_eq_true _, hcontext⟩
      refine .inr fun inner _ => .inr ⟨.inr (.inl (ne_nil_of_mem hbelow)), ?_⟩
      cases path with
      | nil => exact trivial
      | cons token path => exact .inl hbelow
  · refine clear_of_not_blocks fun other hother hblocks => ?_
    rcases hbefore other hother with hmem | rfl
    · exact hhead (h other hmem path hpath hblocks)
    · rw [hfields] at hblocks
      cases hblocks with
      | inside _ _ hstep hinside =>
        cases hinside

variable {pointers : List String}

/-- The loop, from the selection of the paths seen before: what it selects, or the whole document at the
first text without a slash. -/
theorem selectPointers_eq (hdocument : document.Ordered) (hsafe : OrderSafe document paths)
    (hpointers : ∀ path ∈ readings pointers, path ∈ paths)
    (hbefore : ∀ other ∈ before, other ∈ paths ∨ other = ["@context"]) (hcontext : ["@context"] ∈ before) :
    selectPointers document pointers (reached (rootNode parseIndex document paths) before) =
    .ok (if [] ∈ pointers.map parsePointer then document else compactArrays
    (reached (rootNode parseIndex document paths) ((pointers.map parsePointer).reverse ++ before))) := by
  induction pointers generalizing before with
  | nil => rfl
  | cons pointer pointers ih =>
    rw [selectPointers]
    by_cases hempty : parsePointer pointer = []
    · rw [if_pos hempty, map_cons, if_pos (mem_cons.2 (.inl hempty.symm))]
    · have hpath : parsePointer pointer ∈ paths :=
        hpointers _ (mem_filter.2 ⟨mem_cons_self, decide_eq_true hempty⟩)
      have hrest : ∀ path ∈ readings pointers, path ∈ paths := fun path hmem => by
        obtain ⟨hmem, hne⟩ := mem_filter.1 hmem
        exact hpointers path (mem_filter.2 ⟨mem_cons_of_mem _ hmem, hne⟩)
      have hstep := selectPath_reached (rootNode_ordered hdocument) hempty
        (clear_of_orderSafe hsafe hpath hbefore hcontext)
      rw [if_neg hempty, selectPath_rootNode hpath, hstep, ok_bind]
      rw [ih hrest (forall_mem_cons.2 ⟨.inl hpath, hbefore⟩) (mem_cons_of_mem _ hcontext)]
      simp [Ne.symm hempty]

/-- Without blocking paths, the selection is that of their paths in any order. -/
theorem selectJsonLd_eq (hdocument : document.Ordered) (hsafe : OrderSafe document (readings pointers))
    (hne : pointers ≠ []) : selectJsonLd document pointers =
    .ok
    (some (if [] ∈ pointers.map parsePointer then document else compactArrays
    (reached (rootNode parseIndex document (readings pointers)) ((pointers.map parsePointer).reverse ++
    [["@context"]])))) := by
  have hbefore : ∀ other ∈ [["@context"]], other ∈ readings pointers ∨ other = ["@context"] := fun other hother =>
    .inr (mem_singleton.1 hother)
  rw [selectJsonLd, if_neg hne, @startSelection_eq (readings pointers) document hdocument,
    selectPointers_eq hdocument hsafe (fun _ h => h) hbefore mem_cons_self, ok_bind]

end AffinidiTdk.DataIntegrity.Pointers
