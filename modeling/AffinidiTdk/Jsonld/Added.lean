/-
Members that expansion does not look at. A key that begins with `@` and is no keyword is skipped in both
modes, and a term that the context leaves without an IRI is skipped in lenient mode: the document with
such a member expands as the document without it.
-/
import AffinidiTdk.Jsonld.ToRdf
import Mathlib.Data.Set.Finite.Basic

namespace Json

/-! ## One more member -/

/-- The second value is the first with one more member, of an allowed kind, in one of its objects. -/
inductive Adds (allowed : String → Json → Prop) : Json → Json → Prop
  | member {fields : Fields} {key : String} {value : Json} (h : key ∉ fields.keys) (hallowed : allowed key value) :
    Adds allowed (obj fields) (obj (fields.insert key value))
  | item {a b : Json} (before after : List Json) (h : Adds allowed a b) :
    Adds allowed (arr (before ++ a :: after)) (arr (before ++ b :: after))
  | value {a b : Json} (before after : Fields) (key : String) (h : Adds allowed a b) :
    Adds allowed (obj (before ++ (key, a) :: after)) (obj (before ++ (key, b) :: after))

/-- The value is an object or an array with one in it. -/
inductive HasObject : Json → Prop
  | obj (fields : Fields) : HasObject (obj fields)
  | item {items : List Json} {item : Json} (hmem : item ∈ items) (h : HasObject item) : HasObject (arr items)

theorem Adds.hasObject {allowed : String → Json → Prop} {a b : Json} (h : Adds allowed a b) : HasObject a := by
  induction h with
  | member hkey hallowed => exact .obj _
  | item before after h ih => exact .item (List.mem_append_right before List.mem_cons_self) ih
  | value before after key h ih => exact .obj _

theorem Fields.insert_split {key : String} {fields : Fields} (h : key ∉ fields.keys) (value : Json) :
    ∃ before after, fields = before ++ after ∧ fields.insert key value = before ++ (key, value) :: after := by
  induction fields with
  | nil => exact ⟨[], [], rfl, rfl⟩
  | cons member rest ih =>
    obtain ⟨hne, hrest⟩ := not_or.1 fun hor => h (List.mem_cons.2 hor)
    unfold Fields.insert OrdMap.insertEntry
    split_ifs with hlt
    · exact ⟨[], member :: rest, rfl, rfl⟩
    · obtain ⟨before, after, hsplit, hinsert⟩ := ih hrest
      refine ⟨member :: before, after, ?_, ?_⟩
      · rw [hsplit, List.cons_append]
      · rw [List.cons_append, ← hinsert]
        rfl

end Json

namespace AffinidiTdk.Jsonld

open AffinidiTdk.Rdf (RdfError)

variable {bundled : Bundled} {safe : Bool}

/-! ## Skipped members -/

/-- Expansion passes over the member. -/
def Skipped (bundled : Bundled) (safe : Bool) (ctx : Context) (key : String) (value : Json) : Prop :=
  ∀ expandValue result, expandMember bundled safe ctx key value expandValue result = pure result

/-- The keys that the expansion of an object looks for by name. -/
def reservedKeys : List String := ["@context", "@id", "id", "@type", "type", "@value", "@language"]

theorem skipped_of_keyword {ctx : Context} {key : String} (hat : Text.startsWith "@" key = true)
    (hcolon : ':' ∉ key.toList) (hreserved : key ∉ reservedKeys) (value : Json) :
    Skipped bundled safe ctx key value := by
  simp only [reservedKeys, List.mem_cons, List.not_mem_nil, or_false, not_or] at hreserved
  obtain ⟨hcontext, hid, hid', htype, htype', -, -⟩ := hreserved
  have hidKey : isIdKey ctx key = false := by
    rw [isIdKey, if_neg (not_or.2 ⟨hid, hid'⟩)]
  have htypeKey : isTypeKey ctx key = false := by
    rw [isTypeKey, if_neg (not_or.2 ⟨htype, htype'⟩)]
  have habsolute : isAbsoluteIri key = false := by
    rw [isAbsoluteIri, Text.splitOnce, if_neg (by simpa using hcolon)]
  have hiri : ctx.expandIri key = some key := by
    rw [Context.expandIri, if_neg (by simp [habsolute]), if_pos hat]
  intro expandValue result
  unfold expandMember
  rw [if_neg hcontext, hidKey, htypeKey, hiri]
  simp [hat]

/-! ## Objects with a skipped member -/

theorem expandMembers_append (before after : List (String × Json)) (ctx : Context) (result : Json.Fields) :
    expandMembers bundled safe (before ++ after) ctx result = (do
      let result ← expandMembers bundled safe before ctx result
      expandMembers bundled safe after ctx result) := by
  induction before generalizing result with
  | nil => rfl
  | cons member rest ih =>
    rw [List.cons_append, expandMembers, expandMembers, bind_assoc]
    exact bind_congr fun result => ih result

theorem expandMembers_insert {fields : Json.Fields} {key : String} {value : Json} {ctx : Context}
    (hkey : key ∉ fields.keys) (hskip : Skipped bundled safe ctx key value) (result : Json.Fields) :
    expandMembers bundled safe (fields.insert key value) ctx result =
      expandMembers bundled safe fields ctx result := by
  obtain ⟨before, after, hsplit, hinsert⟩ := Json.Fields.insert_split hkey value
  rw [hinsert, hsplit, expandMembers_append, expandMembers_append]
  refine bind_congr fun result => ?_
  rw [expandMembers, hskip]
  rfl

section
variable {fields : Json.Fields} {key : String} {value : Json} (hreserved : key ∉ reservedKeys)

include hreserved

/-- An added term leaves the reserved keys as they are. -/
theorem lookup_insert_reserved {name : String} (hname : name ∈ reservedKeys) :
    (fields.insert key value).lookup name = fields.lookup name := by
  have hne : name ≠ key := by
    rintro rfl
    exact hreserved hname
  exact Json.Fields.lookup_insert_of_ne hne fields value

theorem localContext_insert (parent : Context) :
    localContext bundled (fields.insert key value) parent = localContext bundled fields parent := by
  rw [localContext, localContext, lookup_insert_reserved hreserved (by decide)]

theorem buildTypeScopedContext_insert (ctx : Context) :
    buildTypeScopedContext bundled (fields.insert key value) ctx = buildTypeScopedContext bundled fields ctx := by
  rw [buildTypeScopedContext, buildTypeScopedContext, lookup_insert_reserved hreserved (by decide),
    lookup_insert_reserved hreserved (by decide)]

theorem expandValueObject_insert (ctx : Context) :
    expandValueObject (fields.insert key value) ctx = expandValueObject fields ctx := by
  rw [expandValueObject, expandValueObject, lookup_insert_reserved hreserved (by decide),
    lookup_insert_reserved hreserved (by decide), lookup_insert_reserved hreserved (by decide)]

theorem expandObject_insert (hkey : key ∉ fields.keys) (hskip : ∀ ctx, Skipped bundled safe ctx key value)
    (parent : Context) :
    expandObject bundled safe (fields.insert key value) parent = expandObject bundled safe fields parent := by
  rw [expandObject, expandObject, expandObjectWith, expandObjectWith, localContext_insert hreserved]
  refine bind_congr fun ctx => ?_
  rw [lookup_insert_reserved hreserved (by decide), expandValueObject_insert hreserved,
    buildTypeScopedContext_insert hreserved]
  by_cases hvalue : (fields.lookup "@value").isSome
  · rw [if_pos hvalue, if_pos hvalue]
  · rw [if_neg hvalue, if_neg hvalue]
    refine bind_congr fun ctx => ?_
    rw [expandMembers_insert hkey (hskip ctx)]

end

/-! ## Documents -/

theorem expandElements_append (before after : List Json) (ctx : Context) :
    expandElements bundled safe ctx (before ++ after) = (do
      let first ← expandElements bundled safe ctx before
      let second ← expandElements bundled safe ctx after
      pure (first ++ second)) := by
  induction before with
  | nil =>
    rw [List.nil_append, expandElements, pure_bind]
    simp
  | cons item rest ih =>
    rw [List.cons_append, expandElements, expandElements, ih]
    simp only [bind_assoc, pure_bind, List.append_assoc]

theorem expandElement_congr_item {a b : Json} {ctx : Context} (before after : List Json)
    (h : expandElement bundled safe ctx a = expandElement bundled safe ctx b) :
    expandElement bundled safe ctx (.arr (before ++ a :: after)) =
      expandElement bundled safe ctx (.arr (before ++ b :: after)) := by
  rw [expandElement, expandElement, expandElements_append, expandElements_append, expandElements, expandElements, h]

theorem exists_fresh_keyword (keys : List String) :
    ∃ key : String, key ∉ keys ∧ key ∉ reservedKeys ∧ Text.startsWith "@" key = true ∧ ':' ∉ key.toList := by
  have hinj : Function.Injective fun n : ℕ => String.ofList ('@' :: 'z' :: List.replicate n 'z') := by
    intro m n hmn
    have hlists := congrArg String.toList hmn
    simpa using hlists
  obtain ⟨key, ⟨n, rfl⟩, hkey⟩ :=
    (Set.infinite_range_of_injective hinj).exists_notMem_finset (keys ++ reservedKeys).toFinset
  rw [List.mem_toFinset, List.mem_append, not_or] at hkey
  refine ⟨_, hkey.1, hkey.2, ?_, ?_⟩
  · simp [Text.startsWith]
  · intro hmem
    rw [String.toList_ofList] at hmem
    rcases List.mem_cons.1 hmem with h | hmem
    · cases h
    rcases List.mem_cons.1 hmem with h | hmem
    · cases h
    · exact absurd (List.eq_of_mem_replicate hmem) (by decide)

section
variable {allowed : String → Json → Prop} (hallowed : ∀ key ∉ reservedKeys, ∃ value, allowed key value)

include hallowed

/-- A value with an object in it has a twin with one more member that expands alike, in every context. -/
theorem exists_expandElement_eq {document : Json} (h : document.HasObject) :
    ∃ twin, document.Adds allowed twin ∧
      (∀ ctx, expandElement bundled safe ctx twin = expandElement bundled safe ctx document) ∧
      twin.get? "@context" = document.get? "@context" := by
  induction h with
  | obj fields =>
    obtain ⟨key, hkey, hreserved, hat, hcolon⟩ := exists_fresh_keyword fields.keys
    obtain ⟨value, hvalue⟩ := hallowed key hreserved
    refine ⟨_, .member hkey hvalue, fun ctx => ?_, lookup_insert_reserved hreserved (by decide)⟩
    rw [expandElement, expandElement]
    exact expandObject_insert hreserved hkey (fun ctx => skipped_of_keyword hat hcolon hreserved _) ctx
  | item hmem h ih =>
    obtain ⟨twin, hadds, hsame, -⟩ := ih
    obtain ⟨before, after, rfl⟩ := List.append_of_mem hmem
    exact ⟨_, .item before after hadds, fun ctx => expandElement_congr_item before after (hsame ctx), rfl⟩

theorem exists_expandDocumentInner_eq (bundled : Bundled) (safe : Bool) {document : Json} (h : document.HasObject) :
    ∃ twin, document.Adds allowed twin ∧
      expandDocumentInner bundled twin safe = expandDocumentInner bundled document safe := by
  obtain ⟨twin, hadds, hsame, hcontext⟩ := exists_expandElement_eq hallowed h
  refine ⟨twin, hadds, ?_⟩
  rw [expandDocumentInner, expandDocumentInner, documentContext, documentContext, hcontext]
  refine bind_congr fun ctx => ?_
  rw [hsame]

end

end AffinidiTdk.Jsonld
