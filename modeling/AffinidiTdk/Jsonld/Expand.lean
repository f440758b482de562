/-
JSON-LD expansion (`affinidi-rdf-encoding`, `jsonld/expand.rs`), lenient and in safe mode. The members of
an object come in the order of their keys, and the recursion follows the document.
-/
import AffinidiTdk.Jsonld.Context

namespace AffinidiTdk.Jsonld

open AffinidiTdk.Rdf (RdfError)

/-! ## Types -/

/-- The IRIs that expansion takes as they are. -/
def isFullIri (iri : String) : Bool := Text.contains "://" iri || Text.startsWith "urn:" iri

def expandTypeIri (typeName : String) (ctx : Context) (safe : Bool) : Except RdfError String :=
  if isFullIri typeName then pure typeName
  else
    match (ctx.getTerm typeName).bind fun definition => if isFullIri definition.iri then some definition.iri else
      none with
    | some iri => pure iri
    | none =>
      match ctx.vocab with
      | some vocab => pure (vocab ++ typeName)
      | none =>
        if safe then
          throw (.jsonLdExpansionError
            s!"safe mode: type '{typeName}' is not defined by the active @context and would not expand to an absolute IRI")
        else pure typeName

def expandTypes (ctx : Context) (safe : Bool) : List Json → Except RdfError (List Json)
  | [] => pure []
  | .str s :: rest => do
    let iri ← expandTypeIri s ctx safe
    let iris ← expandTypes ctx safe rest
    pure (.str iri :: iris)
  | value :: rest =>
    if safe then
      throw (.jsonLdExpansionError s!"safe mode: non-string @type entry {value.toText} would be dropped")
    else expandTypes ctx safe rest

def expandTypeValue (value : Json) (ctx : Context) (safe : Bool) : Except RdfError Json :=
  match value with
  | .str s => do
    let iri ← expandTypeIri s ctx safe
    pure (.arr [.str iri])
  | .arr items => do
    let iris ← expandTypes ctx safe items
    pure (.arr iris)
  | _ => throw (.jsonLdExpansionError s!"invalid @type value: {value.toText}")

def isTypeAlias (ctx : Context) : Bool := (ctx.getTerm "type").any fun definition => definition.iri = "@type"

/-- The context with the scoped contexts of the types on top of it. -/
def buildTypeScopedContext (bundled : Bundled) (fields : Json.Fields) (ctx : Context) : Except RdfError Context :=
  let typeValue := match fields.lookup "@type" with
    | some value => some value
    | none => if isTypeAlias ctx then fields.lookup "type" else none
  let types := match typeValue with
    | some (.str s) => [s]
    | some (.arr items) => items.filterMap Json.asStr
    | _ => []
  Context.processItems bundled (types.filterMap fun name => (ctx.getTerm name).bind (·.context)) ctx

/-! ## Values -/

/-- The member is inserted where there is a value for it. -/
def insertSome (key : String) (value : Option Json) (fields : Json.Fields) : Json.Fields :=
  match value with
  | some value => fields.insert key value
  | none => fields

def expandValueObject (fields : Json.Fields) (ctx : Context) : Json :=
  let result := insertSome "@value" (fields.lookup "@value") []
  let datatype := ((fields.lookup "@type").bind Json.asStr).map fun s => Json.str ((ctx.expandIri s).getD s)
  let result := insertSome "@type" datatype result
  .obj (insertSome "@language" (fields.lookup "@language") result)

/-- A value with the datatype that the term gives. -/
def typedValue (value : Json) (datatype : String) (ctx : Context) : Json :=
  .obj [("@type", .str ((ctx.expandIri datatype).getD datatype)), ("@value", value)]

/-- The value of a `@json` term, kept as it is. -/
def jsonValue (value : Json) : Json := .obj [("@type", .str "@json"), ("@value", value)]

def plainValue (value : Json) : Json := .obj [("@value", value)]

/-- Expand a string under the type mapping of its term. -/
def expandString (s : String) (typeMapping : Option String) (ctx : Context) : Json :=
  match typeMapping with
  | some datatype =>
    if datatype = "@id" ∨ datatype = "@vocab" then .obj [("@id", .str ((ctx.expandIri s).getD s))]
    else typedValue (.str s) datatype ctx
  | none => plainValue (.str s)

def expandNumber (n : Json) (typeMapping : Option String) (ctx : Context) : Json :=
  match typeMapping with
  | some datatype => if datatype ≠ "@id" ∧ datatype ≠ "@vocab" then typedValue n datatype ctx else plainValue n
  | none => plainValue n

/-- Expand a value that is neither an array nor an object. -/
def expandScalar (value : Json) (typeMapping : Option String) (ctx : Context) : Json :=
  match value with
  | .str s => expandString s typeMapping ctx
  | .null => .null
  | .bool b => plainValue (.bool b)
  | n => expandNumber n typeMapping ctx

/-! ## Members -/

/-- What the result of an item adds to an array: nested arrays are flattened and nulls skipped. -/
def itemsOf : Json → List Json
  | .arr items => items
  | .null => []
  | value => [value]

/-- Merge the expansion of a value into the property. -/
def mergeProperty (iri : String) (expanded : Json) (result : Json.Fields) : Json.Fields :=
  if expanded = .null then result
  else
    match result.lookup iri with
    | some (.arr items) => result.insert iri (.arr (items ++ itemsOf expanded))
    | some _ => result
    | none => result.insert iri (.arr (itemsOf expanded))

/-- The key stands for the identifier of the node. -/
def isIdKey (ctx : Context) (key : String) : Bool :=
  if key = "@id" ∨ key = "id" then
    match ctx.getTerm key with
    | some definition => definition.iri = "@id"
    | none => key = "@id"
  else false

/-- The key stands for the types of the node. -/
def isTypeKey (ctx : Context) (key : String) : Bool :=
  if key = "@type" ∨ key = "type" then
    match ctx.getTerm key with
    | some definition => definition.iri = "@type"
    | none => key = "@type"
  else false

/-- The context for the value of a property: the scoped one of its term on top. -/
def propertyContext (bundled : Bundled) (ctx : Context) (key : String) : Except RdfError Context :=
  match (ctx.getTerm key).bind (·.context) with
  | some scopedContext => ctx.withScopedContext bundled scopedContext
  | none => pure ctx

/-- The type that the context gives to the values of a term. -/
def typeMappingOf (ctx : Context) (key : String) : Option String := (ctx.getTerm key).bind (·.typeMapping)

/-- A term that does not map to an absolute IRI: dropped, and refused in safe mode. -/
def unmappedTerm (safe : Bool) (key : String) (result : Json.Fields) : Except RdfError Json.Fields :=
  if safe then
    throw (.jsonLdExpansionError
      s!"safe mode: term '{key}' is not defined by the active @context and would be dropped from the signed dataset")
  else pure result

/-- One member of a node object; `expandValue` expands its value under a type mapping and a context. -/
def expandMember (bundled : Bundled) (safe : Bool) (ctx : Context) (key : String) (value : Json)
    (expandValue : Option String → Context → Except RdfError Json) (result : Json.Fields) :
    Except RdfError Json.Fields :=
  if key = "@context" then pure result
  else if isIdKey ctx key then
    match value with
    | .str id => pure (result.insert "@id" (.str id))
    | _ => pure result
  else if isTypeKey ctx key then do
    let expandedTypes ← expandTypeValue value ctx safe
    pure (result.insert "@type" expandedTypes)
  else
    match ctx.expandIri key with
    | some iri =>
      if Text.startsWith "@" iri then pure result
      else if isFullIri iri then do
        let propContext ← propertyContext bundled ctx key
        let expanded ← expandValue (typeMappingOf ctx key) propContext
        pure (mergeProperty iri expanded result)
      else unmappedTerm safe key result
    | none => unmappedTerm safe key result

/-- The context of an object: its own `@context` on top of the one around it. -/
def localContext (bundled : Bundled) (fields : Json.Fields) (parentContext : Context) : Except RdfError Context :=
  match fields.lookup "@context" with
  | some value => parentContext.process bundled value
  | none => pure parentContext

/-- An object: a value object, or a node whose members `expandMembers` expands. -/
def expandObjectWith (bundled : Bundled) (fields : Json.Fields) (parentContext : Context)
    (expandMembers : Context → Except RdfError Json.Fields) : Except RdfError Json := do
  let ctx ← localContext bundled fields parentContext
  if (fields.lookup "@value").isSome then pure (expandValueObject fields ctx)
  else
    let ctx ← buildTypeScopedContext bundled fields ctx
    let result ← expandMembers ctx
    pure (if result.isEmpty then .null else .obj result)

mutual

/-- Expand a property value with type coercion. -/
def expandPropertyValue (bundled : Bundled) (safe : Bool) :
    Json → Option String → Context → Except RdfError Json
  | .arr items, typeMapping, ctx =>
    if typeMapping = some "@json" then pure (jsonValue (.arr items))
    else do
      let result ← expandPropertyValues bundled safe items typeMapping ctx
      pure (.arr result)
  | .obj fields, typeMapping, ctx =>
    if typeMapping = some "@json" then pure (jsonValue (.obj fields))
    else expandObjectWith bundled fields ctx fun ctx => expandMembers bundled safe fields ctx []
  | value, typeMapping, ctx =>
    if typeMapping = some "@json" then pure (jsonValue value) else pure (expandScalar value typeMapping ctx)

def expandPropertyValues (bundled : Bundled) (safe : Bool) :
    List Json → Option String → Context → Except RdfError (List Json)
  | [], _, _ => pure []
  | item :: items, typeMapping, ctx => do
    let expanded ← expandPropertyValue bundled safe item typeMapping ctx
    let result ← expandPropertyValues bundled safe items typeMapping ctx
    pure (itemsOf expanded ++ result)

def expandMembers (bundled : Bundled) (safe : Bool) :
    List (String × Json) → Context → Json.Fields → Except RdfError Json.Fields
  | [], _, result => pure result
  | (key, value) :: members, ctx, result => do
    let result ← expandMember bundled safe ctx key value (expandPropertyValue bundled safe value) result
    expandMembers bundled safe members ctx result

end

def expandObject (bundled : Bundled) (safe : Bool) (fields : Json.Fields) (parentContext : Context) :
    Except RdfError Json :=
  expandObjectWith bundled fields parentContext fun ctx => expandMembers bundled safe fields ctx []

mutual

def expandElement (bundled : Bundled) (safe : Bool) (ctx : Context) : Json → Except RdfError Json
  | .arr items => do
    let result ← expandElements bundled safe ctx items
    pure (.arr result)
  | .obj fields => expandObject bundled safe fields ctx
  | .null => pure .null
  | element =>
    if safe then
      throw (.jsonLdExpansionError
        s!"safe mode: scalar {element.toText} cannot be expanded as a node and would be dropped")
    else pure .null

def expandElements (bundled : Bundled) (safe : Bool) (ctx : Context) : List Json → Except RdfError (List Json)
  | [] => pure []
  | item :: items => do
    let expanded ← expandElement bundled safe ctx item
    let result ← expandElements bundled safe ctx items
    pure (itemsOf expanded ++ result)

end

def wrapped : Json → Json
  | .arr items => .arr items
  | .null => .arr []
  | value => .arr [value]

/-- The context that the document itself gives. -/
def documentContext (bundled : Bundled) (document : Json) : Except RdfError Context :=
  match document.get? "@context" with
  | some value => Context.empty.process bundled value
  | none => pure .empty

def expandDocumentInner (bundled : Bundled) (document : Json) (safe : Bool) : Except RdfError Json := do
  let context ← documentContext bundled document
  let result ← expandElement bundled safe context document
  pure (wrapped result)

/-- Expand a document; terms that the context does not define are dropped. -/
def expandDocument (bundled : Bundled) (document : Json) : Except RdfError Json :=
  expandDocumentInner bundled document false

/-- Expand a document in safe mode: such a term is an error. -/
def expandDocumentSafe (bundled : Bundled) (document : Json) : Except RdfError Json :=
  expandDocumentInner bundled document true

end AffinidiTdk.Jsonld
