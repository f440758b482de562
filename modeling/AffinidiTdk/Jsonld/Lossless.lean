/-
When safe mode drops nothing. Expansion visits the objects of a document, each in a context of its own; an
object is kept when every member with a value is in its expansion. That is so of every visited object
exactly when its members meet a condition that can be read off the document.
-/
import AffinidiTdk.Jsonld.Content

namespace AffinidiTdk.Jsonld

open Fallible List Option Json
open AffinidiTdk.Rdf (RdfError)

/-! ## Visited objects -/

/-- Expanding the value in the first context, expansion gets to the object in the second. -/
inductive Visits (bundled : Bundled) : Context → Json → Context → Json.Fields → Prop
  | object (ctx : Context) (fields : Json.Fields) : Visits bundled ctx (.obj fields) ctx fields
  | item {ctx parent : Context} {items : List Json} {item : Json} {fields : Json.Fields} (hmem : item ∈ items)
      (h : Visits bundled ctx item parent fields) : Visits bundled ctx (.arr items) parent fields
  | member {ctx active inner parent : Context} {members fields : Json.Fields} {key iri : String} {value : Json}
      (hvalue : (members.lookup "@value").isSome = false) (hactive : activeContext bundled members ctx = .ok active)
      (hmem : (key, value) ∈ members) (hrole : role active key = .property iri)
      (hjson : typeMappingOf active key ≠ some "@json") (hinner : propertyContext bundled active key = .ok inner)
      (h : Visits bundled inner value parent fields) : Visits bundled ctx (.obj members) parent fields

/-! ## What is kept -/

/-- The expansion of every leaf that is there is among the items. -/
def Carried (bundled : Bundled) (typeMapping : Option String) (inner : Context) (value : Json)
    (items : List Json) : Prop :=
  if typeMapping = some "@json" then jsonValue value ∈ items
  else
    ∀ leaf ∈ value.leaves, ¬leaf.Vacant → ∃ expanded,
      expandPropertyValue bundled true leaf typeMapping inner = .ok expanded ∧ expanded ≠ .null ∧ expanded ∈ items

/-- A member of a node is in the result: the identifier and the types as those of the node, every other
member as a property with the expansion of its values. -/
def Kept (bundled : Bundled) (active : Context) (key : String) (value : Json) (result : Json.Fields) : Prop :=
  if active.expandIri key = some "@id" then result.lookup "@id" = some value
  else if active.expandIri key = some "@type" then
    ∃ types, result.lookup "@type" = some (.arr types) ∧ ∀ entry ∈ itemsOf value, ∃ name iri,
      entry = .str name ∧ expandTypeIri name active true = .ok iri ∧ .str iri ∈ types
  else
    ∃ iri inner items, role active key = .property iri ∧ propertyContext bundled active key = .ok inner ∧
      result.lookup iri = some (.arr items) ∧ Carried bundled (typeMappingOf active key) inner value items

/-- A member of a value object is in the result. -/
def ValueKept (ctx : Context) (key : String) (value : Json) (result : Json.Fields) : Prop :=
  result.lookup key = some value ∨
    (key = "@type" ∧ ∃ s, value = .str s ∧ result.lookup key = some (.str ((ctx.expandIri s).getD s)))

/-- The members that count: all but `@context` that have a value. -/
def Counts (fields : Json.Fields) (key : String) (value : Json) : Prop :=
  fields.lookup key = some value ∧ key ≠ "@context" ∧ ¬value.Vacant

/-- Every member of the object that counts is in its expansion. -/
def ObjectKept (bundled : Bundled) (parent : Context) (fields : Json.Fields) : Prop :=
  ∃ expanded, expandObject bundled true fields parent = .ok expanded ∧
    if (fields.lookup "@value").isSome then
      ∃ ctx, localContext bundled fields parent = .ok ctx ∧
        ∀ key value, Counts fields key value → ValueKept ctx key value (expanded.asObject.getD [])
    else
      ∃ active, activeContext bundled fields parent = .ok active ∧
        ∀ key value, Counts fields key value → Kept bundled active key value (expanded.asObject.getD [])

/-- Every object that expansion visits is kept, and what the document's own objects expand to is in the
output. -/
def DropsNothing (bundled : Bundled) (document out : Json) : Prop :=
  ∃ ctx items, documentContext bundled document = .ok ctx ∧ out = .arr items ∧
    (∀ members, .obj members ∈ document.leaves → ∃ expanded,
      expandObject bundled true members ctx = .ok expanded ∧ itemsOf expanded ⊆ items) ∧
    ∀ parent fields, Visits bundled ctx document parent fields → ObjectKept bundled parent fields

/-! ## The condition -/

/-- What a member of a node has to meet: one for the identifier has the text that becomes the identifier,
one for the types has types of those that become the node's, and any other has a key that is no keyword
and no object without content as a value. -/
def Representable (bundled : Bundled) (active : Context) (fields : Json.Fields) (key : String) (value : Json) :
    Prop :=
  if active.expandIri key = some "@id" then identifier active fields = some value
  else if active.expandIri key = some "@type" then
    ∃ declared, nodeTypes active fields = some declared ∧ ∀ entry ∈ itemsOf value, ∃ name other iri,
      entry = .str name ∧ expandTypeIri name active true = .ok iri ∧ .str other ∈ itemsOf declared ∧
        expandTypeIri other active true = .ok iri
  else
    role active key ≠ .keyword ∧ (typeMappingOf active key ≠ some "@json" →
      ∀ inner members, propertyContext bundled active key = .ok inner → .obj members ∈ value.leaves → members ≠ [] →
        HasContent bundled inner members)

/-- A value object has its value, a type that is a text and a language, and nothing else. -/
def RepresentableValue (key : String) (value : Json) : Prop :=
  key = "@value" ∨ key = "@language" ∨ (key = "@type" ∧ value.asStr ≠ none)

def ObjectClear (bundled : Bundled) (parent : Context) (fields : Json.Fields) : Prop :=
  if (fields.lookup "@value").isSome then ∀ key value, Counts fields key value → RepresentableValue key value
  else
    ∀ active, activeContext bundled fields parent = .ok active →
      ∀ key value, Counts fields key value → Representable bundled active fields key value

/-- Every member that counts, of every object that expansion visits, can be represented. -/
def Clear (bundled : Bundled) (document : Json) : Prop :=
  ∀ ctx, documentContext bundled document = .ok ctx →
    ∀ parent fields, Visits bundled ctx document parent fields → ObjectClear bundled parent fields

variable {bundled : Bundled} {ctx parent active inner : Context} {fields members final : Json.Fields}
  {key iri : String}
  {value expanded : Json}

/-! ## Nodes -/

theorem mem_expandTypes {items types : List Json} (h : expandTypes active true items = .ok types) (iri : String) :
    .str iri ∈ types ↔ ∃ other, .str other ∈ items ∧ expandTypeIri other active true = .ok iri := by
  induction items generalizing types with
  | nil =>
    cases h
    simp
  | cons item items ih =>
    cases item with
    | str name =>
      rw [expandTypes] at h
      obtain ⟨first, hfirst, h⟩ := bind_eq_ok_iff.1 h
      obtain ⟨rest, hrest, h⟩ := bind_eq_ok_iff.1 h
      cases h
      rw [mem_cons, ih hrest, str.injEq]
      constructor
      · rintro (rfl | ⟨other, hother, hiri⟩)
        · exact ⟨name, mem_cons_self, hfirst⟩
        · exact ⟨other, mem_cons_of_mem _ hother, hiri⟩
      · rintro ⟨other, hother, hiri⟩
        rcases mem_cons.1 hother with heq | hother
        · obtain rfl := str.inj heq
          exact .inl (Except.ok.inj (hiri.symm.trans hfirst))
        · exact .inr ⟨other, hother, hiri⟩
    | null | bool | int | float | arr | obj =>
      unfold expandTypes at h
      cases h

theorem mem_expandTypeValue {types : Json} (h : expandTypeValue value active true = .ok types) :
    ∃ list, types = .arr list ∧ ∀ iri, .str iri ∈ list ↔
      ∃ other, .str other ∈ itemsOf value ∧ expandTypeIri other active true = .ok iri := by
  cases value with
  | str name =>
    obtain ⟨first, hfirst, h⟩ := bind_eq_ok_iff.1 h
    cases h
    refine ⟨_, rfl, fun iri => ?_⟩
    rw [mem_singleton, str.injEq]
    constructor
    · rintro rfl
      exact ⟨name, mem_singleton_self _, hfirst⟩
    · rintro ⟨other, hother, hiri⟩
      obtain rfl := str.inj (mem_singleton.1 hother)
      exact Except.ok.inj (hiri.symm.trans hfirst)
  | arr items =>
    obtain ⟨list, hlist, h⟩ := bind_eq_ok_iff.1 h
    cases h
    exact ⟨list, rfl, mem_expandTypes hlist⟩
  | null | bool | int | float | obj => cases h

mutual

theorem asArray_of_mem_leaves : ∀ {value leaf : Json}, leaf ∈ value.leaves → leaf.asArray = none
  | .arr _, _, h => asArray_of_mem_leavesItems h
  | .obj _, _, h | .null, _, h | .bool _, _, h | .int _, _, h | .float _, _, h | .str _, _, h => by
    rw [mem_singleton.1 h]
    rfl

theorem asArray_of_mem_leavesItems : ∀ {items : List Json} {leaf : Json}, leaf ∈ leavesItems items →
    leaf.asArray = none
  | [], _, h => by cases h
  | _ :: _, _, h => by
    rcases mem_append.1 h with h | h
    · exact asArray_of_mem_leaves h
    · exact asArray_of_mem_leavesItems h

end

theorem vacant_obj : (obj members).Vacant ↔ members = [] := by
  simp [Vacant]

theorem leaf_ne_null {typeMapping : Option String} (hjson : typeMapping ≠ some "@json") (hvacant : ¬value.Vacant)
    (hcontent : ∀ members, value = .obj members → HasContent bundled ctx members)
    (h : expandPropertyValue bundled true value typeMapping ctx = .ok expanded) : expanded ≠ .null := by
  cases hobj : value.asObject with
  | none => exact ne_null_of_scalar (fun hnull => hvacant (.inl hnull)) hobj h
  | some members =>
    obtain rfl : value = .obj members := by
      cases value <;> simp_all [asObject]
    rw [expandPropertyValue_obj hjson] at h
    exact (hcontent members rfl).ne_null h

theorem role_eq_context (h : role active key = .context) : key = "@context" := by
  by_contra hne
  unfold role at h
  rw [if_neg hne] at h
  split_ifs at h
  split at h
  · split_ifs at h
  · cases h

section

variable (hfinal : expandMembers bundled true fields active [] = .ok final) (hcounts : Counts fields key value)
include hfinal hcounts

theorem carried_iff (hrole : role active key = .property iri) :
    (∃ inner items, propertyContext bundled active key = .ok inner ∧ final.lookup iri = some (.arr items) ∧
    Carried bundled (typeMappingOf active key) inner value items) ↔
    (typeMappingOf active key ≠ some "@json" → ∀ inner members, propertyContext bundled active key = .ok inner →
    .obj members ∈ value.leaves → members ≠ [] → HasContent bundled inner members) := by
  obtain ⟨hlookup, -, hvacant⟩ := hcounts
  obtain ⟨inner, expanded, hinner, hexpanded, hkept⟩ :=
    property_of_members hfinal .nil (Fields.mem_of_lookup hlookup) hrole
  constructor
  · rintro ⟨inner', items, hinner', hitems, hcarried⟩ hjson inner'' members hinner'' hleaf hne
    cases hinner'.symm.trans hinner''
    rw [Carried, if_neg hjson] at hcarried
    obtain ⟨result, hresult, hnull, -⟩ := hcarried _ hleaf (mt vacant_obj.1 hne)
    rw [expandPropertyValue_obj hjson] at hresult
    exact hasContent_of_ne_null members _ result hresult hnull
  · intro hclear
    by_cases hjson : typeMappingOf active key = some "@json"
    · rw [expandPropertyValue_json hjson] at hexpanded
      cases hexpanded
      obtain ⟨items, hitems, hsub⟩ := hkept nofun
      refine ⟨inner, items, hinner, hitems, ?_⟩
      rw [Carried, if_pos hjson]
      exact hsub mem_cons_self
    · have hleaves : ∀ leaf ∈ value.leaves, ¬leaf.Vacant → ∀ members, leaf = .obj members →
        HasContent bundled inner members := by
        rintro leaf hleaf hthere members rfl
        exact hclear hjson inner members hinner hleaf (mt vacant_obj.2 hthere)
      have hnull : expanded ≠ .null := by
        refine leaf_ne_null hjson hvacant (fun members hobj => ?_) hexpanded
        have hself : value ∈ value.leaves := by
          rw [hobj]
          exact mem_singleton_self _
        exact hleaves value hself hvacant members hobj
      obtain ⟨items, hitems, hsub⟩ := hkept hnull
      refine ⟨inner, items, hinner, hitems, ?_⟩
      rw [Carried, if_neg hjson]
      intro leaf hleaf hthere
      obtain ⟨result, hresult, hresultsub⟩ := itemsOf_leaf hjson hexpanded hleaf
      have hresultnull := leaf_ne_null hjson hthere (hleaves leaf hleaf hthere) hresult
      have hitem := itemsOf_of_leaf hjson (asArray_of_mem_leaves hleaf) hresult hresultnull
      exact ⟨result, hresult, hresultnull, hsub (hresultsub (hitem ▸ mem_singleton_self _))⟩

theorem kept_iff : Kept bundled active key value final ↔ Representable bundled active fields key value := by
  unfold Kept Representable
  by_cases hid : active.expandIri key = some "@id"
  · rw [if_pos hid, if_pos hid, lookup_id_members hfinal, lookup_nil, or_none]
  rw [if_neg hid, if_neg hid]
  by_cases htype : active.expandIri key = some "@type"
  · rw [if_pos htype, if_pos htype]
    cases hdeclared : nodeTypes active fields with
    | none =>
      rw [lookup_type_of_none hfinal hdeclared]
      simp
    | some declared =>
      obtain ⟨types, htypes, hlookup⟩ := lookup_type_of_some hfinal hdeclared
      obtain ⟨list, rfl, hmem⟩ := mem_expandTypeValue htypes
      constructor
      · rintro ⟨list', hlookup', hkept⟩
        obtain rfl := arr.inj (some.inj (hlookup'.symm.trans hlookup))
        refine ⟨declared, rfl, fun entry hentry => ?_⟩
        obtain ⟨name, iri, hname, hiri, hlisted⟩ := hkept entry hentry
        obtain ⟨other, hother, hsame⟩ := (hmem iri).1 hlisted
        exact ⟨name, other, iri, hname, hiri, hother, hsame⟩
      · rintro ⟨declared', hsome, hclear⟩
        cases hsome
        refine ⟨list, hlookup, fun entry hentry => ?_⟩
        obtain ⟨name, other, iri, hname, hiri, hother, hsame⟩ := hclear entry hentry
        exact ⟨name, iri, hname, hiri, (hmem iri).2 ⟨other, hother, hsame⟩⟩
  rw [if_neg htype, if_neg htype]
  have hundefined := role_ne_undefined hfinal (Fields.mem_of_lookup hcounts.1)
  cases hrole : role active key with
  | context => exact absurd (role_eq_context hrole) hcounts.2.1
  | id => exact absurd (expandIri_of_role_id hrole) hid
  | type => exact absurd (expandIri_of_role_type hrole) htype
  | undefined => exact absurd hrole hundefined
  | keyword => simp
  | property iri =>
    have hcarried := carried_iff hfinal hcounts hrole
    constructor
    · rintro ⟨other, inner, items, hother, hrest⟩
      obtain rfl := Role.property.inj hother
      exact ⟨nofun, hcarried.1 ⟨inner, items, hrest⟩⟩
    · rintro ⟨-, hclear⟩
      obtain ⟨inner, items, hrest⟩ := hcarried.2 hclear
      exact ⟨iri, inner, items, rfl, hrest⟩

end

/-! ## Value objects -/

theorem lookup_insertSome (name : String) (found : Option Json) (before : Fields) :
    (insertSome key found before).lookup name = if name =
      key then found.or (before.lookup name) else before.lookup name := by
  cases found with
  | none =>
    rw [insertSome, none_or]
    simp
  | some value =>
    rw [insertSome, Fields.lookup_insert_eq]
    simp

theorem valueKept_iff (hcounts : Counts fields key value) (ctx : Context) :
    ValueKept ctx key value ((expandValueObject fields ctx).asObject.getD []) ↔ RepresentableValue key value := by
  obtain ⟨hlookup, -, -⟩ := hcounts
  have hempty (name : String) : List.lookup name ([] : Fields) = none := rfl
  rw [ValueKept, RepresentableValue, expandValueObject, asObject, getD_some]
  simp only [lookup_insertSome, hempty, or_none]
  by_cases hvalue : key = "@value"
  · subst hvalue
    simp [hlookup]
  by_cases hlanguage : key = "@language"
  · subst hlanguage
    simp [hlookup]
  by_cases htype : key = "@type"
  · subst htype
    cases value <;> simp [hlookup, asStr]
  · simp [hvalue, hlanguage, htype]

/-! ## Documents -/

theorem objectKept_iff (h : expandObject bundled true fields parent = .ok expanded) :
    ObjectKept bundled parent fields ↔ ObjectClear bundled parent fields := by
  unfold ObjectKept ObjectClear
  cases hvalue : (fields.lookup "@value").isSome with
  | true =>
    simp only [if_true]
    obtain ⟨ctx, hctx, rfl⟩ := expandObject_value hvalue h
    constructor
    · rintro ⟨expanded, hexpanded, ctx', hctx', hkept⟩ key value hcounts
      cases h.symm.trans hexpanded
      cases hctx.symm.trans hctx'
      exact (valueKept_iff hcounts ctx).1 (hkept key value hcounts)
    · intro hclear
      exact ⟨_, h, ctx, hctx, fun key value hcounts => (valueKept_iff hcounts ctx).2 (hclear key value hcounts)⟩
  | false =>
    simp only [Bool.false_eq_true, if_false]
    obtain ⟨active, final, hactive, hfinal, rfl⟩ := expandObject_node hvalue h
    have hmembers : (if final.isEmpty then null else .obj final).asObject.getD [] = final := by
      cases final with
      | nil => rfl
      | cons => rfl
    constructor
    · rintro ⟨expanded, hexpanded, active', hactive', hkept⟩ active'' hactive'' key value hcounts
      cases h.symm.trans hexpanded
      cases hactive.symm.trans hactive'
      cases hactive.symm.trans hactive''
      exact (kept_iff hfinal hcounts).1 (hmembers ▸ hkept key value hcounts)
    · intro hclear
      refine ⟨_, h, active, hactive, fun key value hcounts => ?_⟩
      rw [hmembers]
      exact (kept_iff hfinal hcounts).2 (hclear active hactive key value hcounts)

theorem exists_expandElement_item {items results : List Json} {item : Json}
    (h : expandElements bundled true ctx items = .ok results) (hmem : item ∈ items) :
    ∃ result, expandElement bundled true ctx item = .ok result := by
  induction items generalizing results with
  | nil => cases hmem
  | cons first items ih =>
    rw [expandElements] at h
    obtain ⟨result, hresult, h⟩ := bind_eq_ok_iff.1 h
    obtain ⟨rest, hrest, -⟩ := bind_eq_ok_iff.1 h
    rcases mem_cons.1 hmem with rfl | hmem
    · exact ⟨result, hresult⟩
    · exact ih hrest hmem

theorem exists_expandPropertyValue_item {items results : List Json} {item : Json} {typeMapping : Option String}
    (h : expandPropertyValues bundled true items typeMapping ctx = .ok results) (hmem : item ∈ items) :
    ∃ result, expandPropertyValue bundled true item typeMapping ctx = .ok result := by
  induction items generalizing results with
  | nil => cases hmem
  | cons first items ih =>
    rw [expandPropertyValues] at h
    obtain ⟨result, hresult, h⟩ := bind_eq_ok_iff.1 h
    obtain ⟨rest, hrest, -⟩ := bind_eq_ok_iff.1 h
    rcases mem_cons.1 hmem with rfl | hmem
    · exact ⟨result, hresult⟩
    · exact ih hrest hmem

/-- The value is expanded, as an element or as the value of a property that is not kept as it is. -/
def Expanded (bundled : Bundled) (ctx : Context) (value : Json) : Prop :=
  (∃ result, expandElement bundled true ctx value = .ok result) ∨
    ∃ typeMapping result, typeMapping ≠ some "@json" ∧ expandPropertyValue bundled true value typeMapping ctx =
      .ok result

theorem Visits.succeeds (h : Visits bundled ctx value parent fields) (hvalue : Expanded bundled ctx value) :
    ∃ result, expandObject bundled true fields parent = .ok result := by
  induction h with
  | object ctx fields =>
    rcases hvalue with ⟨result, hresult⟩ | ⟨typeMapping, result, hjson, hresult⟩
    · exact ⟨result, hresult⟩
    · rw [expandPropertyValue_obj hjson] at hresult
      exact ⟨result, hresult⟩
  | item hmem h ih =>
    refine ih ?_
    rcases hvalue with ⟨result, hresult⟩ | ⟨typeMapping, result, hjson, hresult⟩
    · rw [expandElement] at hresult
      obtain ⟨results, hresults, -⟩ := bind_eq_ok_iff.1 hresult
      exact .inl (exists_expandElement_item hresults hmem)
    · rw [expandPropertyValue, if_neg hjson] at hresult
      obtain ⟨results, hresults, -⟩ := bind_eq_ok_iff.1 hresult
      obtain ⟨result, hresult⟩ := exists_expandPropertyValue_item hresults hmem
      exact .inr ⟨typeMapping, result, hjson, hresult⟩
  | @member ctx active inner parent members fields key iri value hnode hactive hmem hrole hjson hinner h ih =>
    have hobject : ∃ result, expandObject bundled true members ctx = .ok result := by
      rcases hvalue with ⟨result, hresult⟩ | ⟨typeMapping, result, hjson, hresult⟩
      · exact ⟨result, hresult⟩
      · rw [expandPropertyValue_obj hjson] at hresult
        exact ⟨result, hresult⟩
    obtain ⟨result, hresult⟩ := hobject
    obtain ⟨active', final, hactive', hfinal, -⟩ := expandObject_node hnode hresult
    cases hactive.symm.trans hactive'
    obtain ⟨inner', expanded, hinner', hexpanded, -⟩ := property_of_members hfinal .nil hmem hrole
    cases hinner.symm.trans hinner'
    exact ih (.inr ⟨_, expanded, hjson, hexpanded⟩)

theorem wrapped_eq (value : Json) : wrapped value = .arr (itemsOf value) := by
  cases value <;> rfl

section
variable {document out : Json}

section

variable (h : expandDocumentSafe bundled document = .ok out)
include h

theorem expandDocumentSafe_eq_ok : ∃ ctx result, documentContext bundled document = .ok ctx ∧ expandElement bundled
    true ctx document = .ok result ∧ out = .arr (itemsOf result) := by
  obtain ⟨ctx, hctx, h⟩ := bind_eq_ok_iff.1 h
  obtain ⟨result, hresult, h⟩ := bind_eq_ok_iff.1 h
  refine ⟨ctx, result, hctx, hresult, ?_⟩
  rw [← wrapped_eq]
  exact (Except.ok.inj h).symm

/-- Safe mode drops nothing exactly when every member that counts can be represented. -/
theorem dropsNothing_iff : DropsNothing bundled document out ↔ Clear bundled document := by
  obtain ⟨ctx, result, hctx, hresult, rfl⟩ := expandDocumentSafe_eq_ok h
  have hobjects : ∀ parent fields, Visits bundled ctx document parent fields →
      (ObjectKept bundled parent fields ↔ ObjectClear bundled parent fields) := by
    intro parent fields hvisits
    obtain ⟨expanded, hexpanded⟩ := hvisits.succeeds (.inl ⟨result, hresult⟩)
    exact objectKept_iff hexpanded
  constructor
  · rintro ⟨ctx', items, hctx', -, -, hkept⟩ ctx'' hctx'' parent fields hvisits
    cases hctx.symm.trans hctx'
    cases hctx.symm.trans hctx''
    exact (hobjects parent fields hvisits).1 (hkept parent fields hvisits)
  · intro hclear
    refine ⟨ctx, _, hctx, rfl, fun members hmembers => itemsOf_leaf_element hresult hmembers, ?_⟩
    intro parent fields hvisits
    exact (hobjects parent fields hvisits).2 (hclear ctx hctx parent fields hvisits)

/-- No document with one more member that counts expands to the same output. -/
def TellsApart (bundled : Bundled) (document out : Json) : Prop :=
  ∀ twin, document.Adds (fun key value => key ≠ "@context" ∧ ¬value.Vacant) twin →
    expandDocumentSafe bundled twin ≠ .ok out

theorem tellsApart_iff : TellsApart bundled document out ↔ ¬document.HasObject := by
  constructor
  · intro hapart hobject
    have hcounts : ∀ key ∉ reservedKeys, ∃ value : Json, key ≠ "@context" ∧ ¬value.Vacant := by
      intro key hkey
      refine ⟨.str "dropped", ?_, by simp [Vacant]⟩
      rintro rfl
      exact hkey (by decide)
    obtain ⟨twin, hadds, hsame⟩ := exists_expandDocumentInner_eq hcounts bundled true hobject
    exact hapart twin hadds (hsame.trans h)
  · intro hobject twin hadds
    exact absurd hadds.hasObject hobject

end

/-- **Lossless expansion**: safe mode keeps every member exactly when all of them can be represented, and a
document with one more member always expands differently exactly when there is no object to add it to. -/
theorem expandDocumentSafe_lossless_iff (h : expandDocumentSafe bundled document = .ok out) :
    (DropsNothing bundled document out ↔ Clear bundled document) ∧
      (TellsApart bundled document out ↔ ¬document.HasObject) :=
  ⟨dropsNothing_iff h, tellsApart_iff h⟩

end

/-! ## A name with a level -/

section
open Json

def nameMembers : Fields := [("@value", str "Alice")]

def plain : Json := obj [("@id", str "urn:alice"), ("urn:name", obj nameMembers)]

/-- The person with a level beside the value of the name. -/
def levelled : Json := obj [("@id", str "urn:alice"), ("urn:name", obj (nameMembers.insert "level" (str "gold")))]

def expandedName : Json := arr [obj [("@id", str "urn:alice"), ("urn:name", arr [obj nameMembers])]]

def noContexts : Bundled := fun _ => none

theorem plain_expands : expandDocumentSafe noContexts plain = .ok expandedName := by
  decide +kernel

theorem levelled_expands : expandDocumentSafe noContexts levelled = .ok expandedName := by
  decide +kernel

theorem lossless_iff_plain :
    (DropsNothing noContexts plain expandedName ↔ Clear noContexts plain) ∧
      (TellsApart noContexts plain expandedName ↔ ¬plain.HasObject) :=
  expandDocumentSafe_lossless_iff plain_expands

theorem levelled_not_clear : ¬Clear noContexts levelled := by
  intro hclear
  have hactive : activeContext noContexts
    [("@id", str "urn:alice"), ("urn:name", obj (nameMembers.insert "level" (str "gold")))]
      .empty = .ok .empty := by rfl
  have hrole : role .empty "urn:name" = .property "urn:name" := by decide +kernel
  have hinner : propertyContext noContexts .empty "urn:name" = .ok .empty := by rfl
  have hvisits : Visits noContexts .empty levelled .empty (nameMembers.insert "level" (str "gold")) :=
    .member (by decide) hactive (mem_cons_of_mem _ mem_cons_self) hrole (by decide) hinner (.object _ _)
  have hobject := hclear .empty rfl .empty _ hvisits
  rw [ObjectClear, if_pos (by decide)] at hobject
  have hcounts : Counts (nameMembers.insert "level" (str "gold")) "level" (str "gold") :=
    ⟨Fields.lookup_insert _ _ _, by decide, by simp [Vacant]⟩
  rcases hobject "level" (str "gold") hcounts with h | h | ⟨h, -⟩
  · exact absurd h (by decide)
  · exact absurd h (by decide)
  · exact absurd h (by decide)

/-- Safe mode accepts the level and drops it: the two persons have the same expansion. -/
theorem level_dropped :
    expandDocumentSafe noContexts levelled = .ok expandedName ∧ ¬DropsNothing noContexts levelled expandedName ∧
      expandDocumentSafe noContexts plain = .ok expandedName ∧ ¬TellsApart noContexts plain expandedName := by
  refine ⟨levelled_expands, fun h => levelled_not_clear ((dropsNothing_iff levelled_expands).1 h), plain_expands, ?_⟩
  intro hapart
  have hadds : plain.Adds (fun key value => key ≠ "@context" ∧ ¬value.Vacant) levelled :=
    .value [("@id", str "urn:alice")] [] "urn:name" (.member (by decide) ⟨by decide, by simp [Vacant]⟩)
  exact hapart levelled hadds levelled_expands

end

end AffinidiTdk.Jsonld
