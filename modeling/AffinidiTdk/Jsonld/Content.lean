/-
Which values expand to something in safe mode. A scalar does, but for null; an object does exactly when it
has content, which is a matter of its members; an array hands on what its leaves expand to.
-/
import AffinidiTdk.Jsonld.Represented

namespace Json

/-- Nothing to represent: null, and the containers without an entry. -/
def Vacant (value : Json) : Prop := value = null ∨ value = arr [] ∨ value = obj []

mutual

/-- The values in nested arrays. -/
def leaves : Json → List Json
  | arr items => leavesItems items
  | value => [value]

def leavesItems : List Json → List Json
  | [] => []
  | item :: items => item.leaves ++ leavesItems items

end

end Json

namespace AffinidiTdk.Jsonld

open AffinidiTdk.Rdf (RdfError)

/-! ## Objects -/

/-- The context under which the keys of a node are read. -/
def activeContext (bundled : Bundled) (fields : Json.Fields) (parent : Context) : Except RdfError Context := do
  let ctx ← localContext bundled fields parent
  buildTypeScopedContext bundled fields ctx

/-- An object that expands to something: it has a member that adds to the result. -/
inductive HasContent (bundled : Bundled) : Context → Json.Fields → Prop
  | value {parent : Context} {fields : Json.Fields} (hvalue : (fields.lookup "@value").isSome = true) :
      HasContent bundled parent fields
  | id {parent active : Context} {fields : Json.Fields} {key : String} {value : Json}
      (hvalue : (fields.lookup "@value").isSome = false)
      (hactive : activeContext bundled fields parent = .ok active) (hmem : (key, value) ∈ fields)
      (hrole : role active key = .id) (hstr : value.asStr ≠ none) : HasContent bundled parent fields
  | type {parent active : Context} {fields : Json.Fields} {key : String} {value : Json}
      (hvalue : (fields.lookup "@value").isSome = false)
      (hactive : activeContext bundled fields parent = .ok active) (hmem : (key, value) ∈ fields)
      (hrole : role active key = .type) : HasContent bundled parent fields
  | property {parent active : Context} {fields : Json.Fields} {key iri : String} {value : Json}
      (hvalue : (fields.lookup "@value").isSome = false)
      (hactive : activeContext bundled fields parent = .ok active) (hmem : (key, value) ∈ fields)
      (hrole : role active key = .property iri)
      (hplain : typeMappingOf active key = some "@json" ∨ (value ≠ .null ∧ value.asObject = none)) :
    HasContent bundled parent fields
  | nested {parent active inner : Context} {fields members : Json.Fields} {key iri : String}
      (hvalue : (fields.lookup "@value").isSome = false)
      (hactive : activeContext bundled fields parent = .ok active) (hmem : (key, .obj members) ∈ fields)
      (hrole : role active key = .property iri) (hinner : propertyContext bundled active key = .ok inner)
      (h : HasContent bundled inner members) : HasContent bundled parent fields

variable {bundled : Bundled} {ctx parent active inner : Context} {fields members : Json.Fields} {key : String}
  {value expanded : Json}

theorem expandObject_value (hvalue : (fields.lookup "@value").isSome = true)
    (h : expandObject bundled true fields parent = .ok expanded) :
    ∃ ctx, localContext bundled fields parent = .ok ctx ∧ expanded = expandValueObject fields ctx := by
  obtain ⟨ctx, hctx, h⟩ := Fallible.bind_eq_ok_iff.1 h
  rw [if_pos hvalue] at h
  exact ⟨ctx, hctx, (Fallible.pure_eq_ok_iff.1 h).symm⟩

/-- A node object is expanded member by member under its active context. -/
theorem expandObject_node (hvalue : (fields.lookup "@value").isSome = false)
    (h : expandObject bundled true fields parent = .ok expanded) : ∃ active final, activeContext bundled fields
    parent = .ok active ∧ expandMembers bundled true fields active [] = .ok final ∧ expanded =
    if final.isEmpty then .null else .obj final := by
  obtain ⟨ctx, hctx, h⟩ := Fallible.bind_eq_ok_iff.1 h
  rw [if_neg (by simp [hvalue])] at h
  obtain ⟨active, hactive, h⟩ := Fallible.bind_eq_ok_iff.1 h
  obtain ⟨final, hfinal, h⟩ := Fallible.bind_eq_ok_iff.1 h
  exact ⟨active, final, Fallible.bind_eq_ok_iff.2 ⟨ctx, hctx, hactive⟩, hfinal, (Fallible.pure_eq_ok_iff.1 h).symm⟩

variable {typeMapping : Option String}

theorem expandPropertyValue_json (h : typeMapping = some "@json") (value : Json) (ctx : Context) :
    expandPropertyValue bundled true value typeMapping ctx = .ok (jsonValue value) := by
  cases value with
  | arr | obj =>
    rw [expandPropertyValue, if_pos h]
    rfl
  | null | bool | int | float | str =>
    unfold expandPropertyValue
    rw [if_pos h]
    rfl

theorem expandPropertyValue_obj (h : typeMapping ≠ some "@json") (members : Json.Fields) (ctx : Context) :
    expandPropertyValue bundled true (.obj members) typeMapping ctx = expandObject bundled true members ctx := by
  rw [expandPropertyValue, if_neg h]
  rfl

theorem expandScalar_obj (hnull : value ≠ .null) (typeMapping : Option String) (ctx : Context) :
    ∃ members, expandScalar value typeMapping ctx = .obj members := by
  have hnumber (n : Json) : ∃ members, expandNumber n typeMapping ctx = .obj members := by
    unfold expandNumber
    split
    · split_ifs
      · exact ⟨_, rfl⟩
      · exact ⟨_, rfl⟩
    · exact ⟨_, rfl⟩
  cases value with
  | null => exact absurd rfl hnull
  | bool b => exact ⟨_, rfl⟩
  | int | float | arr | obj => exact hnumber _
  | str s =>
    show ∃ members, expandString s typeMapping ctx = .obj members
    unfold expandString
    split
    · split_ifs
      · exact ⟨_, rfl⟩
      · exact ⟨_, rfl⟩
    · exact ⟨_, rfl⟩

theorem expandObject_shape (h : expandObject bundled true fields parent = .ok expanded) :
    expanded = .null ∨ ∃ members, expanded = .obj members := by
  cases hvalue : (fields.lookup "@value").isSome with
  | true =>
    obtain ⟨ctx, -, rfl⟩ := expandObject_value hvalue h
    exact .inr ⟨_, rfl⟩
  | false =>
    obtain ⟨active, final, -, -, rfl⟩ := expandObject_node hvalue h
    split_ifs
    · exact .inl rfl
    · exact .inr ⟨_, rfl⟩

theorem ne_null_of_scalar (hnull : value ≠ .null) (hobj : value.asObject = none)
    (h : expandPropertyValue bundled true value typeMapping ctx = .ok expanded) : expanded ≠ .null := by
  by_cases hjson : typeMapping = some "@json"
  · rw [expandPropertyValue_json hjson] at h
    cases h
    rintro ⟨⟩
  cases value with
  | null => exact absurd rfl hnull
  | obj members => cases hobj
  | arr items =>
    rw [expandPropertyValue, if_neg hjson] at h
    obtain ⟨result, -, h⟩ := Fallible.bind_eq_ok_iff.1 h
    cases h
    rintro ⟨⟩
  | bool | int | float | str =>
    unfold expandPropertyValue at h
    rw [if_neg hjson] at h
    cases h
    obtain ⟨members, hmembers⟩ := expandScalar_obj hnull typeMapping ctx
    rw [hmembers]
    rintro ⟨⟩

theorem ne_null_of_nested (hmembers : ∀ result, expandObject bundled true members ctx = .ok result → result ≠
    .null) (h : expandPropertyValue bundled true (.obj members) typeMapping ctx = .ok expanded) :
    expanded ≠ .null := by
  by_cases hjson : typeMapping = some "@json"
  · rw [expandPropertyValue_json hjson] at h
    cases h
    rintro ⟨⟩
  · rw [expandPropertyValue_obj hjson] at h
    exact hmembers expanded h

/-! ## Content -/

theorem node_ne_null {final : Json.Fields} {name : String} {found : Json} (h : final.lookup name = some found) :
    (if final.isEmpty then Json.null else .obj final) ≠ .null := by
  cases final with
  | nil => cases h
  | cons => nofun

theorem identifier_ne_none (hmem : (key, value) ∈ fields) (hrole : role active key = .id)
    (hstr : value.asStr ≠ none) :
    identifier active fields ≠ none := by
  induction fields with
  | nil => cases hmem
  | cons member members ih =>
    rw [identifier, ne_eq, Option.or_eq_none_iff, not_and_or]
    rcases List.mem_cons.1 hmem with rfl | hmem
    · exact .inr (by simp [hrole, hstr])
    · exact .inl (ih hmem)

theorem nodeTypes_ne_none (hmem : (key, value) ∈ fields) (hrole : role active key = .type) :
    nodeTypes active fields ≠ none := by
  induction fields with
  | nil => cases hmem
  | cons member members ih =>
    rw [nodeTypes, ne_eq, Option.or_eq_none_iff, not_and_or]
    rcases List.mem_cons.1 hmem with rfl | hmem
    · exact .inr (by simp [hrole])
    · exact .inl (ih hmem)

theorem Arrayed.nil : Arrayed [] := fun _ _ _ h => by cases h

theorem HasContent.ne_null (hcontent : HasContent bundled parent fields)
    (h : expandObject bundled true fields parent = .ok expanded) : expanded ≠ .null := by
  induction hcontent generalizing expanded with
  | value hvalue =>
    obtain ⟨ctx, -, rfl⟩ := expandObject_value hvalue h
    nofun
  | id hvalue hactive hmem hrole hstr =>
    obtain ⟨active, final, hactive', hfinal, rfl⟩ := expandObject_node hvalue h
    cases hactive.symm.trans hactive'
    obtain ⟨id, hid⟩ := Option.ne_none_iff_exists'.1 (identifier_ne_none hmem hrole hstr)
    have hlookup := lookup_id_members hfinal
    rw [hid, Option.some_or] at hlookup
    exact node_ne_null hlookup
  | type hvalue hactive hmem hrole =>
    obtain ⟨active, final, hactive', hfinal, rfl⟩ := expandObject_node hvalue h
    cases hactive.symm.trans hactive'
    obtain ⟨declared, hdeclared⟩ := Option.ne_none_iff_exists'.1 (nodeTypes_ne_none hmem hrole)
    obtain ⟨types, -, htypes⟩ := lookup_type_of_some hfinal hdeclared
    exact node_ne_null htypes
  | property hvalue hactive hmem hrole hplain =>
    obtain ⟨active, final, hactive', hfinal, rfl⟩ := expandObject_node hvalue h
    cases hactive.symm.trans hactive'
    obtain ⟨inner, expanded, -, hexpanded, hkept⟩ := property_of_members hfinal .nil hmem hrole
    have hnull : expanded ≠ .null := by
      rcases hplain with hjson | ⟨hnull, hobj⟩
      · rw [expandPropertyValue_json hjson] at hexpanded
        cases hexpanded
        nofun
      · exact ne_null_of_scalar hnull hobj hexpanded
    obtain ⟨items, hitems, -⟩ := hkept hnull
    exact node_ne_null hitems
  | nested hvalue hactive hmem hrole hinner hnested ih =>
    obtain ⟨active, final, hactive', hfinal, rfl⟩ := expandObject_node hvalue h
    cases hactive.symm.trans hactive'
    obtain ⟨inner', expanded, hinner', hexpanded, hkept⟩ := property_of_members hfinal .nil hmem hrole
    cases hinner.symm.trans hinner'
    obtain ⟨items, hitems, -⟩ := hkept (ne_null_of_nested (fun _ => ih) hexpanded)
    exact node_ne_null hitems

theorem hasContent_of_ne_null (fields : Json.Fields) (parent : Context) (expanded : Json)
    (h : expandObject bundled true fields parent = .ok expanded) (hnull : expanded ≠ .null) :
    HasContent bundled parent fields := by
  cases hvalue : (fields.lookup "@value").isSome with
  | true => exact .value hvalue
  | false =>
    obtain ⟨active, final, hactive, hfinal, rfl⟩ := expandObject_node hvalue h
    have hne : final ≠ [] := by
      rintro rfl
      exact hnull rfl
    obtain ⟨key, value, hmem, hgives⟩ := exists_gives hfinal hne
    rcases hgives with ⟨hrole, hstr⟩ | hrole | ⟨iri, inner, result, hrole, hinner, hresult, hresultnull⟩
    · exact .id hvalue hactive hmem hrole hstr
    · exact .type hvalue hactive hmem hrole
    · by_cases hjson : typeMappingOf active key = some "@json"
      · exact .property hvalue hactive hmem hrole (.inl hjson)
      cases value with
      | obj members =>
        rw [expandPropertyValue_obj hjson] at hresult
        exact .nested hvalue hactive hmem hrole hinner
          (hasContent_of_ne_null members inner result hresult hresultnull)
      | null =>
        unfold expandPropertyValue at hresult
        rw [if_neg hjson] at hresult
        exact absurd (Except.ok.inj hresult).symm hresultnull
      | bool | int | float | str | arr => exact .property hvalue hactive hmem hrole (.inr ⟨by rintro ⟨⟩, rfl⟩)
termination_by sizeOf fields
decreasing_by
  have hsize := List.sizeOf_lt_of_mem hmem
  simp only [Prod.mk.sizeOf_spec, Json.obj.sizeOf_spec] at hsize
  omega

/-! ## Leaves -/

mutual

variable {typeMapping : Option String}

/-- What a leaf of a property value expands to is in the expansion of the value. -/
theorem itemsOf_leaf (hjson : typeMapping ≠ some "@json") : ∀ {value expanded leaf : Json}, expandPropertyValue
    bundled true value typeMapping ctx = .ok expanded → leaf ∈ value.leaves → ∃ result, expandPropertyValue bundled
    true leaf typeMapping ctx = .ok result ∧ itemsOf result ⊆ itemsOf expanded
  | .arr items, expanded, leaf, h, hleaf => by
    rw [expandPropertyValue, if_neg hjson] at h
    obtain ⟨results, hresults, h⟩ := Fallible.bind_eq_ok_iff.1 h
    cases h
    exact itemsOf_leaf_items hjson hresults hleaf
  | .null, expanded, leaf, h, hleaf | .bool _, expanded, leaf, h, hleaf | .int _, expanded, leaf, h, hleaf
  | .float _, expanded, leaf, h, hleaf | .str _, expanded, leaf, h, hleaf | .obj _, expanded, leaf, h, hleaf => by
    obtain rfl := List.mem_singleton.1 hleaf
    exact ⟨expanded, h, List.Subset.refl _⟩

theorem itemsOf_leaf_items (hjson : typeMapping ≠ some "@json") : ∀ {items results : List Json} {leaf : Json},
    expandPropertyValues bundled true items typeMapping ctx = .ok results → leaf ∈ Json.leavesItems items →
    ∃ result, expandPropertyValue bundled true leaf typeMapping ctx = .ok result ∧ itemsOf result ⊆ results
  | [], _, _, _, hleaf => by cases hleaf
  | item :: items, results, leaf, h, hleaf => by
    rw [expandPropertyValues] at h
    obtain ⟨expanded, hexpanded, h⟩ := Fallible.bind_eq_ok_iff.1 h
    obtain ⟨rest, hrest, h⟩ := Fallible.bind_eq_ok_iff.1 h
    cases h
    rcases List.mem_append.1 hleaf with hleaf | hleaf
    · obtain ⟨result, hresult, hsub⟩ := itemsOf_leaf hjson hexpanded hleaf
      exact ⟨result, hresult, List.Subset.trans hsub (List.subset_append_left _ _)⟩
    · obtain ⟨result, hresult, hsub⟩ := itemsOf_leaf_items hjson hrest hleaf
      exact ⟨result, hresult, List.Subset.trans hsub (List.subset_append_right _ _)⟩

end

mutual

theorem itemsOf_leaf_element :
    ∀ {element expanded : Json}, expandElement bundled true ctx element = .ok expanded →
      .obj members ∈ element.leaves → ∃ result, expandObject bundled true members ctx = .ok result ∧
        itemsOf result ⊆ itemsOf expanded
  | .arr items, expanded, h, hleaf => by
    rw [expandElement] at h
    obtain ⟨results, hresults, h⟩ := Fallible.bind_eq_ok_iff.1 h
    cases h
    exact itemsOf_leaf_elements hresults hleaf
  | .obj fields, expanded, h, hleaf => by
    obtain rfl := Json.obj.inj (List.mem_singleton.1 hleaf)
    exact ⟨expanded, h, List.Subset.refl _⟩
  | .null, _, _, hleaf | .bool _, _, _, hleaf | .int _, _, _, hleaf | .float _, _, _, hleaf
  | .str _, _, _, hleaf => by cases List.mem_singleton.1 hleaf

theorem itemsOf_leaf_elements :
    ∀ {items results : List Json}, expandElements bundled true ctx items = .ok results →
      .obj members ∈ Json.leavesItems items → ∃ result, expandObject bundled true members ctx = .ok result ∧
        itemsOf result ⊆ results
  | [], _, _, hleaf => by cases hleaf
  | item :: items, results, h, hleaf => by
    rw [expandElements] at h
    obtain ⟨expanded, hexpanded, h⟩ := Fallible.bind_eq_ok_iff.1 h
    obtain ⟨rest, hrest, h⟩ := Fallible.bind_eq_ok_iff.1 h
    cases h
    rcases List.mem_append.1 hleaf with hleaf | hleaf
    · obtain ⟨result, hresult, hsub⟩ := itemsOf_leaf_element hexpanded hleaf
      exact ⟨result, hresult, List.Subset.trans hsub (List.subset_append_left _ _)⟩
    · obtain ⟨result, hresult, hsub⟩ := itemsOf_leaf_elements hrest hleaf
      exact ⟨result, hresult, List.Subset.trans hsub (List.subset_append_right _ _)⟩

end

theorem itemsOf_of_leaf (hjson : typeMapping ≠ some "@json") (harray : value.asArray = none)
    (h : expandPropertyValue bundled true value typeMapping ctx = .ok expanded) (hnull : expanded ≠ .null) :
    itemsOf expanded = [expanded] := by
  have hobj (hshape : expanded = .null ∨ ∃ result, expanded = .obj result) : itemsOf expanded = [expanded] := by
    rcases hshape with rfl | ⟨result, rfl⟩
    · exact absurd rfl hnull
    · rfl
  cases value with
  | arr items => cases harray
  | obj members =>
    rw [expandPropertyValue_obj hjson] at h
    exact hobj (expandObject_shape h)
  | null =>
    unfold expandPropertyValue at h
    rw [if_neg hjson] at h
    exact absurd (Except.ok.inj h).symm hnull
  | bool | int | float | str =>
    unfold expandPropertyValue at h
    rw [if_neg hjson] at h
    cases h
    refine hobj (.inr (expandScalar_obj ?_ typeMapping ctx))
    rintro ⟨⟩

end AffinidiTdk.Jsonld
