/-
Processed JSON-LD contexts (`affinidi-rdf-encoding`, `jsonld/context.rs`). The bundled context documents
are a parameter: what `get_bundled_context` has under a URL.
-/
import AffinidiTdk.Lib.JsonText
import AffinidiTdk.Lib.Text
import AffinidiTdk.Rdf.Model

namespace AffinidiTdk.Jsonld

open AffinidiTdk.Rdf (RdfError)

abbrev Bundled := String → Option Json

/-- The containers a term can have. -/
inductive ContainerType
  | set
  | list
  | graph

/-- What a context says of a term. -/
structure TermDefinition where
  iri : String
  typeMapping : Option String
  container : Option ContainerType
  context : Option Json
  isProtected : Bool

/-- The terms, the one defined last in front. -/
structure Context where
  terms : List (String × TermDefinition)
  vocab : Option String
  base : Option String
  defaultLanguage : Option String

namespace Context

def empty : Context := ⟨[], none, none, none⟩

def getTerm (ctx : Context) (term : String) : Option TermDefinition := ctx.terms.lookup term

def insertTerm (ctx : Context) (term : String) (definition : TermDefinition) : Context :=
  { ctx with terms := (term, definition) :: ctx.terms }

end Context

/-! ## IRIs -/

def isSchemeChar (c : Char) : Bool := c.isAlphanum || c = '+' || c = '-' || c = '.'

def isAbsoluteIri (value : String) : Bool :=
  match Text.splitOnce ':' value with
  | some (scheme, rest) =>
    if (scheme.toList.head?.any Char.isAlpha) && scheme.toList.all isSchemeChar then
      if Text.startsWith "//" rest then true
      else ["urn", "did", "tel", "mailto", "data", "blob", "cid", "mid", "tag"].contains scheme
    else false
  | none => false

/-- A compact IRI under a prefix of the context, or an IRI of a scheme that is not known. -/
def compactIri (ctx : Context) (value : String) : Option String :=
  match Text.splitOnce ':' value with
  | some (prefixText, suffix) =>
    match ctx.getTerm prefixText with
    | some definition => some (definition.iri ++ suffix)
    | none => if prefixText ≠ "" ∧ prefixText.toList.all isSchemeChar then some value else none
  | none => none

/-- Expand a term or a compact IRI to a full IRI. -/
def Context.expandIri (ctx : Context) (value : String) : Option String :=
  if isAbsoluteIri value then some value
  else if Text.startsWith "@" value then some value
  else
    match ctx.getTerm value with
    | some definition => some definition.iri
    | none =>
      match compactIri ctx value with
      | some iri => some iri
      | none => ctx.vocab.map (· ++ value)

/-- Resolve an IRI or the reference to a term. -/
def resolveIri (value : String) (ctx : Context) : String :=
  if isAbsoluteIri value then value
  else if Text.startsWith "@" value then value
  else
    match ctx.getTerm value with
    | some definition => definition.iri
    | none =>
      match compactIri ctx value with
      | some iri => iri
      | none =>
        match ctx.vocab with
        | some vocab => vocab ++ value
        | none => value

/-! ## Processing -/

def createTermDefinition (term : String) (value : Json) (parentProtected : Bool) (ctx : Context) :
    Except RdfError TermDefinition :=
  match value with
  | .str iriOrTerm => pure ⟨resolveIri iriOrTerm ctx, none, none, none, parentProtected⟩
  | .obj fields =>
    let id := ((fields.lookup "@id").bind Json.asStr).getD term
    let typeMapping := ((fields.lookup "@type").bind Json.asStr).map fun t =>
      if Text.startsWith "@" t then t else resolveIri t ctx
    let container := ((fields.lookup "@container").bind Json.asStr).bind fun c =>
      if c = "@set" then some ContainerType.set
      else if c = "@list" then some .list
      else if c = "@graph" then some .graph
      else none
    let isProtected := ((fields.lookup "@protected").bind Json.asBool).getD parentProtected
    pure ⟨resolveIri id ctx, typeMapping, container, fields.lookup "@context", isProtected⟩
  | .null => pure ⟨"", none, none, none, false⟩
  | _ => throw (.contextError s!"invalid term definition for '{term}': {value.toText}")

def defineTerms (isProtected : Bool) : List (String × Json) → Context → Except RdfError Context
  | [], ctx => pure ctx
  | (key, value) :: entries, ctx => do
    let definition ← createTermDefinition key value isProtected ctx
    defineTerms isProtected entries (ctx.insertTerm key definition)

def processContextObject (value : Json) (ctx : Context) : Except RdfError Context :=
  match value with
  | .obj fields => do
    let ctx := match fields.lookup "@vocab" with
      | some vocab => { ctx with vocab := vocab.asStr }
      | none => ctx
    let ctx := match fields.lookup "@base" with
      | some base => { ctx with base := base.asStr }
      | none => ctx
    let ctx := match fields.lookup "@language" with
      | some lang => { ctx with defaultLanguage := lang.asStr }
      | none => ctx
    let isProtected := ((fields.lookup "@protected").bind Json.asBool).getD false
    let entries := fields.filter fun entry => !Text.startsWith "@" entry.1
    -- the string mappings first, so that prefixes are there for the expanded definitions
    let ctx ← defineTerms isProtected (entries.filter fun entry => entry.2.asStr.isSome) ctx
    defineTerms isProtected (entries.filter fun entry => entry.2.asStr.isNone) ctx
  | _ => throw (.contextError "@context value is not an object")

def processRemote (bundled : Bundled) (url : String) (ctx : Context) : Except RdfError Context :=
  match bundled url with
  | some document =>
    match document.get? "@context" with
    | some inner => processContextObject inner ctx
    | none => throw (.contextError s!"context document missing @context key: {url}")
  | none => throw (.contextError s!"unknown context URL (no bundled context): {url}")

mutual

/-- Merge a `@context` value into the context. -/
def Context.process (bundled : Bundled) : Json → Context → Except RdfError Context
  | .arr items, ctx => Context.processItems bundled items ctx
  | .str url, ctx => processRemote bundled url ctx
  | .obj fields, ctx => processContextObject (.obj fields) ctx
  | .null, _ => pure .empty
  | value, _ => throw (.contextError s!"invalid @context value: {value.toText}")

def Context.processItems (bundled : Bundled) : List Json → Context → Except RdfError Context
  | [], ctx => pure ctx
  | item :: items, ctx => do
    let ctx ← Context.process bundled item ctx
    Context.processItems bundled items ctx

end

/-- The context with a scoped one on top of it. -/
def Context.withScopedContext (bundled : Bundled) (ctx : Context) (scopedContext : Json) : Except RdfError Context :=
  ctx.process bundled scopedContext

end AffinidiTdk.Jsonld
