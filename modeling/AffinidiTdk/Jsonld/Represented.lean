/-
What the expansion of an object keeps of its members in safe mode. Every member has a role, which its key
gives it under the active context; the members of a node are merged one after the other into the result,
and what each of them adds is still there at the end, but for an identifier or types that a later member
overwrites.
-/
import AffinidiTdk.Jsonld.Added

namespace AffinidiTdk.Jsonld

open Fallible Json.Fields List Option
open AffinidiTdk.Rdf (RdfError)

/-! ## Roles -/

/-- What a member of a node stands for. -/
inductive Role
  | context
  | id
  | type
  | keyword
  | property (iri : String)
  | undefined
  deriving DecidableEq

/-- What the key stands for in a node. -/
def role (active : Context) (key : String) : Role :=
  if key = "@context" then .context
  else if isIdKey active key then .id
  else if isTypeKey active key then .type
  else
    match active.expandIri key with
    | some iri =>
      if Text.startsWith "@" iri then .keyword
      else if isFullIri iri then .property iri
      else .undefined
    | none => .undefined

variable {bundled : Bundled} {active : Context} {key iri : String} {value : Json}

theorem expandIri_of_isIdKey (h : isIdKey active key = true) : active.expandIri key = some "@id" := by
  unfold isIdKey at h
  by_cases hkey : key = "@id" ∨ key = "id"
  · rw [if_pos hkey] at h
    rcases hkey with rfl | rfl
    · rw [Context.expandIri, if_neg (by decide), if_pos (by decide)]
    · cases hterm : active.getTerm "id" with
      | none => simp [hterm] at h
      | some definition =>
        have hiri : definition.iri = "@id" := by simpa [hterm] using h
        rw [Context.expandIri, if_neg (by decide), if_neg (by decide), hterm, ← hiri]
  · simp [if_neg hkey] at h

theorem expandIri_of_isTypeKey (h : isTypeKey active key = true) : active.expandIri key = some "@type" := by
  unfold isTypeKey at h
  by_cases hkey : key = "@type" ∨ key = "type"
  · rw [if_pos hkey] at h
    rcases hkey with rfl | rfl
    · rw [Context.expandIri, if_neg (by decide), if_pos (by decide)]
    · cases hterm : active.getTerm "type" with
      | none => simp [hterm] at h
      | some definition =>
        have hiri : definition.iri = "@type" := by simpa [hterm] using h
        rw [Context.expandIri, if_neg (by decide), if_neg (by decide), hterm, ← hiri]
  · simp [if_neg hkey] at h

theorem expandIri_of_role_id (h : role active key = .id) : active.expandIri key = some "@id" := by
  unfold role at h
  split_ifs at h with hcontext hid htype
  · exact expandIri_of_isIdKey hid
  · split at h
    · split_ifs at h
    · cases h

theorem expandIri_of_role_type (h : role active key = .type) : active.expandIri key = some "@type" := by
  unfold role at h
  split_ifs at h with hcontext hid htype
  · exact expandIri_of_isTypeKey htype
  · split at h
    · split_ifs at h
    · cases h

theorem expandIri_of_role_property (h : role active key = .property iri) :
    active.expandIri key = some iri ∧ Text.startsWith "@" iri = false := by
  unfold role at h
  split_ifs at h with hcontext hid htype
  split at h
  · next other hexpand =>
    split_ifs at h with hat hfull
    obtain rfl := Role.property.inj h
    exact ⟨hexpand, by simpa using hat⟩
  · cases h

theorem ne_keyword_of_role_property (h : role active key = .property iri) : iri ≠ "@id" ∧ iri ≠ "@type" := by
  have hat := (expandIri_of_role_property h).2
  constructor
  · rintro rfl
    exact absurd hat (by decide)
  · rintro rfl
    exact absurd hat (by decide)

/-! ## One member -/

/-- What a member makes of the result in safe mode; `expandValue` expands its value. -/
inductive MemberStep (bundled : Bundled) (active : Context) (key : String) (value : Json)
    (expandValue : Option String → Context → Except RdfError Json) (result : Json.Fields) : Json.Fields → Prop
  | context (h : role active key = .context) : MemberStep bundled active key value expandValue result result
  | id (id : String) (h : role active key = .id) (hvalue : value = .str id) :
    MemberStep bundled active key value expandValue result (result.insert "@id" (.str id))
  | idSkipped (h : role active key = .id) (hvalue : value.asStr = none) :
    MemberStep bundled active key value expandValue result result
  | type (types : Json) (h : role active key = .type) (htypes : expandTypeValue value active true = .ok types) :
    MemberStep bundled active key value expandValue result (result.insert "@type" types)
  | keyword (h : role active key = .keyword) : MemberStep bundled active key value expandValue result result
  | property (iri : String) (inner : Context) (expanded : Json) (h : role active key = .property iri)
      (hinner : propertyContext bundled active key = .ok inner)
      (hexpanded : expandValue (typeMappingOf active key) inner = .ok expanded) :
    MemberStep bundled active key value expandValue result (mergeProperty iri expanded result)

theorem memberStep_of_expandMember {expandValue : Option String → Context → Except RdfError Json}
    {result result' : Json.Fields} (h : expandMember bundled true active key value expandValue result =
      .ok result') :
    MemberStep bundled active key value expandValue result result' := by
  unfold expandMember at h
  by_cases hcontext : key = "@context"
  · rw [if_pos hcontext] at h
    obtain rfl := pure_eq_ok_iff.1 h
    exact .context (by rw [role, if_pos hcontext])
  rw [if_neg hcontext] at h
  by_cases hid : isIdKey active key = true
  · rw [if_pos hid] at h
    have hrole : role active key = .id := by rw [role, if_neg hcontext, if_pos hid]
    cases value with
    | str id =>
      obtain rfl := pure_eq_ok_iff.1 h
      exact .id id hrole rfl
    | null | bool | int | float | arr | obj =>
      obtain rfl := pure_eq_ok_iff.1 h
      exact .idSkipped hrole rfl
  rw [if_neg hid] at h
  by_cases htype : isTypeKey active key = true
  · rw [if_pos htype] at h
    obtain ⟨types, htypes, h⟩ := bind_eq_ok_iff.1 h
    obtain rfl := pure_eq_ok_iff.1 h
    exact .type types (by rw [role, if_neg hcontext, if_neg hid, if_pos htype]) htypes
  rw [if_neg htype] at h
  cases hexpand : active.expandIri key with
  | none =>
    rw [hexpand] at h
    cases h
  | some iri =>
    rw [hexpand] at h
    have hrole : role active key =
        if Text.startsWith "@" iri then .keyword else if isFullIri iri then .property iri else .undefined := by
      rw [role, if_neg hcontext, if_neg hid, if_neg htype, hexpand]
    by_cases hat : Text.startsWith "@" iri = true
    · simp only [if_pos hat] at h hrole
      obtain rfl := pure_eq_ok_iff.1 h
      exact .keyword hrole
    by_cases hfull : isFullIri iri = true
    · simp only [if_neg hat, if_pos hfull] at h hrole
      obtain ⟨inner, hinner, h⟩ := bind_eq_ok_iff.1 h
      obtain ⟨expanded, hexpanded, h⟩ := bind_eq_ok_iff.1 h
      obtain rfl := pure_eq_ok_iff.1 h
      exact .property iri inner expanded hrole hinner hexpanded
    · simp only [if_neg hat, if_neg hfull] at h
      cases h

/-- Expanding an object takes one step for each member. -/
theorem expandMembers_cons {members : List (String × Json)} {result final : Json.Fields}
    (h : expandMembers bundled true ((key, value) :: members) active result = .ok final) :
    ∃ result', MemberStep bundled active key value (expandPropertyValue bundled true value) result result' ∧
      expandMembers bundled true members active result' = .ok final := by
  rw [expandMembers] at h
  obtain ⟨result', hstep, h⟩ := bind_eq_ok_iff.1 h
  exact ⟨result', memberStep_of_expandMember hstep, h⟩

/-! ## Properties -/

/-- Every property of the result is an array. -/
def Arrayed (result : Json.Fields) : Prop :=
  ∀ iri value, Text.startsWith "@" iri = false → result.lookup iri = some value → ∃ items, value = .arr items

theorem lookup_mergeProperty_of_ne {name : String} (hne : name ≠ iri) (expanded : Json) (result : Json.Fields) :
    (mergeProperty iri expanded result).lookup name = result.lookup name := by
  unfold mergeProperty
  split_ifs with hnull
  · rfl
  · split
    · exact lookup_insert_of_ne hne _ _
    · rfl
    · exact lookup_insert_of_ne hne _ _

theorem lookup_mergeProperty {result : Json.Fields} (h : Arrayed result) (hat : Text.startsWith "@" iri = false)
    {expanded : Json} (hnull : expanded ≠ .null) :
    ∃ items, (mergeProperty iri expanded result).lookup iri = some (.arr (items ++ itemsOf expanded)) ∧
      ∀ old, result.lookup iri = some (.arr old) → items = old := by
  rw [mergeProperty, if_neg hnull]
  cases hlookup : result.lookup iri with
  | none => exact ⟨[], lookup_insert _ _ _, fun old hold => by cases hold⟩
  | some value =>
    obtain ⟨items, rfl⟩ := h iri value hat hlookup
    refine ⟨items, lookup_insert _ _ _, fun old hold => ?_⟩
    exact Json.arr.inj (some.inj hold)

section
variable {expandValue : Option String → Context → Except RdfError Json} {result result' : Json.Fields}

theorem Arrayed.insert_keyword (h : Arrayed result) {name : String} (hname : Text.startsWith "@" name = true)
    (value : Json) : Arrayed (result.insert name value) := by
  intro iri other hat hlookup
  have hne : iri ≠ name := by
    rintro rfl
    simp [hname] at hat
  rw [lookup_insert_of_ne hne] at hlookup
  exact h iri other hat hlookup

/-- A member keeps the values of the result in arrays. -/
theorem Arrayed.step (h : Arrayed result) (hstep : MemberStep bundled active key value expandValue result result') :
    Arrayed result' := by
  cases hstep with
  | context | idSkipped | keyword => exact h
  | id | type => exact h.insert_keyword (by decide) _
  | property iri inner expanded hrole =>
    intro name other hat hlookup
    by_cases hne : name = iri
    · subst hne
      by_cases hnull : expanded = .null
      · rw [mergeProperty, if_pos hnull] at hlookup
        exact h name other hat hlookup
      · obtain ⟨items, hitems, -⟩ := lookup_mergeProperty h hat hnull
        exact ⟨_, some.inj (hlookup.symm.trans hitems)⟩
    · rw [lookup_mergeProperty_of_ne hne] at hlookup
      exact h name other hat hlookup

theorem MemberStep.keeps (hstep : MemberStep bundled active key value expandValue result result')
    (h : Arrayed result) (hat : Text.startsWith "@" iri = false) {items : List Json}
    (hlookup : result.lookup iri = some (.arr items)) :
    ∃ items', result'.lookup iri = some (.arr items') ∧ items ⊆ items' := by
  have hkeyword {name : String} (hname : Text.startsWith "@" name = true) : iri ≠ name := by
    rintro rfl
    simp [hname] at hat
  cases hstep with
  | context | idSkipped | keyword => exact ⟨items, hlookup, List.Subset.refl items⟩
  | id | type => exact ⟨items, by rwa [lookup_insert_of_ne (hkeyword (by decide))], List.Subset.refl items⟩
  | property other inner expanded hrole =>
    by_cases hnull : expanded = .null
    · exact ⟨items, by rwa [mergeProperty, if_pos hnull], List.Subset.refl items⟩
    by_cases hne : iri = other
    · subst hne
      obtain ⟨before, hbefore, hsame⟩ := lookup_mergeProperty h hat hnull
      refine ⟨_, hbefore, ?_⟩
      rw [hsame items hlookup]
      exact subset_append_left _ _
    · exact ⟨items, by rwa [lookup_mergeProperty_of_ne hne], List.Subset.refl items⟩

end

section
variable {members : List (String × Json)} {result final : Json.Fields}

section

variable (h : expandMembers bundled true members active result = .ok final)
include h

theorem keeps_members (harr : Arrayed result) (hat : Text.startsWith "@" iri = false) {items : List Json}
    (hlookup : result.lookup iri = some (.arr items)) :
    ∃ items', final.lookup iri = some (.arr items') ∧ items ⊆ items' := by
  induction members generalizing result items with
  | nil =>
    obtain rfl := pure_eq_ok_iff.1 h
    exact ⟨items, hlookup, List.Subset.refl items⟩
  | cons member members ih =>
    obtain ⟨result', hstep, hrest⟩ := expandMembers_cons h
    obtain ⟨items', hlookup', hsub⟩ := hstep.keeps harr hat hlookup
    obtain ⟨items'', hlookup'', hsub'⟩ := ih hrest (harr.step hstep) hlookup'
    exact ⟨items'', hlookup'', List.Subset.trans hsub hsub'⟩

theorem property_of_members (harr : Arrayed result) (hmem : (key, value) ∈ members)
    (hrole : role active key = .property iri) : ∃ inner expanded, propertyContext bundled active key = .ok inner ∧
    expandPropertyValue bundled true value (typeMappingOf active key) inner = .ok expanded ∧
    (expanded ≠ .null → ∃ items, final.lookup iri = some (.arr items) ∧ itemsOf expanded ⊆ items) := by
  induction members generalizing result with
  | nil => cases hmem
  | cons member members ih =>
    obtain ⟨result', hstep, hrest⟩ := expandMembers_cons h
    rcases mem_cons.1 hmem with rfl | hmem
    · have hat := (expandIri_of_role_property hrole).2
      have harr' := harr.step hstep
      cases hstep with
      | context h' | id _ h' | idSkipped h' | type _ h' | keyword h' => simp [hrole] at h'
      | property other inner expanded hother hinner hexpanded =>
        obtain rfl := Role.property.inj (hrole.symm.trans hother)
        refine ⟨inner, expanded, hinner, hexpanded, fun hnull => ?_⟩
        obtain ⟨before, hbefore, -⟩ := lookup_mergeProperty harr hat hnull
        obtain ⟨items, hitems, hsub⟩ := keeps_members hrest harr' hat hbefore
        exact ⟨items, hitems, List.Subset.trans (subset_append_right _ _) hsub⟩
    · exact ih hrest (harr.step hstep) hmem

theorem role_ne_undefined (hmem : (key, value) ∈ members) : role active key ≠ .undefined := by
  induction members generalizing result with
  | nil => cases hmem
  | cons member members ih =>
    obtain ⟨result', hstep, hrest⟩ := expandMembers_cons h
    rcases mem_cons.1 hmem with rfl | hmem
    · cases hstep with
      | context h' | id _ h' | idSkipped h' | type _ h' | keyword h' | property _ _ _ h' => simp [h']
    · exact ih hrest hmem

end

end

/-! ## Identifier and types -/

/-- The last text under a key for the identifier. -/
def identifier (active : Context) : Json.Fields → Option Json
  | [] => none
  | (key, value) :: members =>
    (identifier active members).or (if role active key = .id ∧ value.asStr ≠ none then some value else none)

/-- The value of the last key for the types. -/
def nodeTypes (active : Context) : Json.Fields → Option Json
  | [] => none
  | (key, value) :: members => (nodeTypes active members).or (if role active key = .type then some value else none)

section
variable {members : List (String × Json)} {result final : Json.Fields}

theorem lookup_id_members (h : expandMembers bundled true members active result = .ok final) :
    final.lookup "@id" = (identifier active members).or (result.lookup "@id") := by
  induction members generalizing result with
  | nil =>
    obtain rfl := pure_eq_ok_iff.1 h
    rfl
  | cons member members ih =>
    obtain ⟨key, value⟩ := member
    obtain ⟨result', hstep, hrest⟩ := expandMembers_cons h
    rw [ih hrest, identifier, Option.or_assoc]
    congr 1
    cases hstep with
    | context h' | keyword h' => simp [h']
    | id id h' hvalue =>
      subst hvalue
      simp [h', Json.asStr, lookup_insert]
    | idSkipped h' hvalue => simp [hvalue]
    | type types h' =>
      have hlookup : (result.insert "@type" types).lookup "@id" = result.lookup "@id" :=
        lookup_insert_of_ne (by decide) result types
      simp [h', hlookup]
    | property iri inner expanded h' =>
      have hlookup := lookup_mergeProperty_of_ne (ne_keyword_of_role_property h').1.symm expanded result
      simp [h', hlookup]

theorem MemberStep.lookup_type {expandValue : Option String → Context → Except RdfError Json} {result' : Json.Fields}
    (hstep : MemberStep bundled active key value expandValue result result') (hrole : role active key ≠ .type) :
    result'.lookup "@type" = result.lookup "@type" := by
  cases hstep with
  | context | idSkipped | keyword => rfl
  | id => exact lookup_insert_of_ne (by decide) _ _
  | type types h' => exact absurd h' hrole
  | property iri inner expanded h' => exact lookup_mergeProperty_of_ne (ne_keyword_of_role_property h').2.symm _ _

theorem lookup_type_of_none (h : expandMembers bundled true members active result = .ok final)
    (hnone : nodeTypes active members = none) : final.lookup "@type" = result.lookup "@type" := by
  induction members generalizing result with
  | nil =>
    obtain rfl := pure_eq_ok_iff.1 h
    rfl
  | cons member members ih =>
    obtain ⟨key, value⟩ := member
    obtain ⟨result', hstep, hrest⟩ := expandMembers_cons h
    obtain ⟨hlater, hhere⟩ := or_eq_none_iff.1 hnone
    rw [ih hrest hlater]
    refine hstep.lookup_type fun hrole => ?_
    rw [if_pos hrole] at hhere
    cases hhere

theorem lookup_type_of_some (h : expandMembers bundled true members active result = .ok final) {declared : Json}
    (hsome : nodeTypes active members = some declared) :
    ∃ types, expandTypeValue declared active true = .ok types ∧ final.lookup "@type" = some types := by
  induction members generalizing result with
  | nil => cases hsome
  | cons member members ih =>
    obtain ⟨key, value⟩ := member
    obtain ⟨result', hstep, hrest⟩ := expandMembers_cons h
    rw [nodeTypes] at hsome
    cases hlater : nodeTypes active members with
    | some later =>
      rw [hlater, some_or] at hsome
      exact ih hrest (hlater.trans hsome)
    | none =>
      rw [hlater, none_or] at hsome
      split_ifs at hsome with hrole
      cases hsome
      rw [lookup_type_of_none hrest hlater]
      cases hstep with
      | context h' | id _ h' | idSkipped h' | keyword h' | property _ _ _ h' => simp [hrole] at h'
      | type types h' htypes => exact ⟨types, htypes, lookup_insert _ _ _⟩

/-- The member adds something to the result. -/
def Gives (bundled : Bundled) (active : Context) (key : String) (value : Json) : Prop :=
  (role active key = .id ∧ value.asStr ≠ none) ∨ role active key = .type ∨
    ∃ iri inner expanded, role active key = .property iri ∧ propertyContext bundled active key = .ok inner ∧
      expandPropertyValue bundled true value (typeMappingOf active key) inner = .ok expanded ∧ expanded ≠ .null

theorem exists_gives (h : expandMembers bundled true members active [] = .ok final) (hne : final ≠ []) :
    ∃ key value, (key, value) ∈ members ∧ Gives bundled active key value := by
  induction members with
  | nil =>
    obtain rfl := pure_eq_ok_iff.1 h
    exact absurd rfl hne
  | cons member members ih =>
    obtain ⟨key, value⟩ := member
    obtain ⟨result', hstep, hrest⟩ := expandMembers_cons h
    have hlater (hsame : result' = []) :
        ∃ key' value', (key', value') ∈ (key, value) :: members ∧ Gives bundled active key' value' := by
      obtain ⟨key', value', hmem, hgives⟩ := ih (hsame ▸ hrest)
      exact ⟨key', value', mem_cons_of_mem _ hmem, hgives⟩
    cases hstep with
    | context | idSkipped | keyword => exact hlater rfl
    | id id h' hvalue =>
      subst hvalue
      exact ⟨key, _, mem_cons_self, .inl ⟨h', by simp [Json.asStr]⟩⟩
    | type types h' => exact ⟨key, value, mem_cons_self, .inr (.inl h')⟩
    | property iri inner expanded h' hinner hexpanded =>
      by_cases hnull : expanded = .null
      · exact hlater (by rw [mergeProperty, if_pos hnull])
      · exact ⟨key, value, mem_cons_self, .inr (.inr ⟨iri, inner, expanded, h', hinner, hexpanded, hnull⟩)⟩

end

end AffinidiTdk.Jsonld
