/-
From expanded JSON-LD to RDF (`affinidi-rdf-encoding`, `jsonld/to_rdf.rs`, `jsonld/mod.rs`). What floating
point makes of a number is a parameter (`Doubles`).
-/
import AffinidiTdk.Jsonld.Expand

namespace AffinidiTdk.Jsonld

open AffinidiTdk.Rdf

/-- Numbers that are not integers in the JSON text: the integer they stand for, where they are integral
and small enough, and their canonical `xsd:double` form. -/
structure Doubles where
  integral : String → Option ℤ
  canonicalXsdDouble : String → Text

/-- The quads so far and the number of the next blank node. -/
structure Progress where
  quads : List Quad
  blankCounter : ℕ

namespace Progress

def add (progress : Progress) (quad : Quad) : Progress := { progress with quads := progress.quads ++ [quad] }

def fresh (progress : Progress) : Progress × BlankNode :=
  ({ progress with blankCounter := progress.blankCounter + 1 }, ⟨'b' :: Nat.toDigits 10 progress.blankCounter⟩)

end Progress

/-! ## Literals -/

def numberToLiteral (doubles : Doubles) : Json → Literal
  | .int n => .typed (toString n).toList ⟨xsd.integer⟩
  | .float text =>
    match doubles.integral text with
    | some n => .typed (toString n).toList ⟨xsd.integer⟩
    | none => .typed (doubles.canonicalXsdDouble text) ⟨xsd.double⟩
  | value => .new value.chars

/-- Convert a `@value` object to a literal. -/
def valueObjectToLiteral (doubles : Doubles) (value : Json) (fields : Json.Fields) : Literal :=
  let datatype := (fields.lookup "@type").bind Json.asStr
  if datatype = some "@json" then .typed value.chars ⟨rdf.json⟩
  else
    let stringValue := match value with
      | .str s => s.toList
      | value => value.chars
    match (fields.lookup "@language").bind Json.asStr with
    | some lang => .lang stringValue lang.toList
    | none =>
      match datatype with
      | some datatype => .typed stringValue ⟨datatype.toList⟩
      | none =>
        match value with
        | .bool _ => .typed stringValue ⟨xsd.boolean⟩
        | .int n => numberToLiteral doubles (.int n)
        | .float text => numberToLiteral doubles (.float text)
        | _ => .new stringValue

/-! ## Nodes -/

def Object.ofSubject : Subject → Object
  | .named n => .named n
  | .blank b => .blank b

/-- The node of an identifier: `_:` begins a blank node label. -/
def subjectOf (id : String) : Subject :=
  match id.toList with
  | '_' :: ':' :: label => .blank ⟨label⟩
  | iri => .named ⟨iri⟩

/-- The subject of a node, a new blank node where it has no identifier. -/
def nodeSubject (node : Json.Fields) (progress : Progress) : Except RdfError (Subject × Progress) :=
  match node.lookup "@id" with
  | some (.str id) => pure (subjectOf id, progress)
  | some _ => throw (.toRdfError "@id must be a string")
  | none => pure (.blank progress.fresh.2, progress.fresh.1)

def typeQuads (subject : Subject) (graph : GraphLabel) (node : Json.Fields) : List Quad :=
  (((node.lookup "@type").bind Json.asArray).getD []).filterMap fun typeVal =>
    typeVal.asStr.map fun iri => ⟨subject, ⟨rdf.type⟩, .named ⟨iri.toList⟩, graph⟩

/-- The subject and the quads of the types of a node; `processProperties` does the rest. -/
def processNodeWith (node : Json.Fields) (graph : GraphLabel) (progress : Progress)
    (processProperties : Subject → Progress → Except RdfError Progress) : Except RdfError (Subject × Progress) := do
  let (subject, progress) ← nodeSubject node progress
  let progress := (typeQuads subject graph node).foldl Progress.add progress
  let progress ← processProperties subject progress
  pure (subject, progress)

/-- One node of a list, in front of what is already there. -/
def listNode (graph : GraphLabel) (item : Option Object) (rest : Object) (progress : Progress) :
    Except RdfError (Object × Progress) :=
  match item with
  | none => throw (.toRdfError "invalid list item")
  | some itemObject =>
    let (progress, node) := progress.fresh
    let progress := progress.add ⟨.blank node, ⟨rdf.first⟩, itemObject, graph⟩
    let progress := progress.add ⟨.blank node, ⟨rdf.rest⟩, rest, graph⟩
    pure (.blank node, progress)

/-- How an object of the expanded form becomes an RDF object. -/
inductive ValueShape
  | literal (value : Json)
  | list (list : Json)
  | reference (id : Json)
  | node

def valueShape (fields : Json.Fields) : ValueShape :=
  match fields.lookup "@value" with
  | some value => .literal value
  | none =>
    match fields.lookup "@list" with
    | some list => .list list
    | none =>
      match fields.lookup "@id" with
      | some id => if fields.length = 1 then .reference id else .node
      | none => .node

mutual

/-- Convert an expanded value to an object. -/
def valueToObject (doubles : Doubles) (graph : GraphLabel) :
    Json → Progress → Except RdfError (Option Object × Progress)
  | .obj fields, progress =>
    match valueShape fields with
    | .literal value => pure (some (.literal (valueObjectToLiteral doubles value fields)), progress)
    | .list _ => do
      let (object, progress) ← listMember doubles graph fields progress
      pure (some object, progress)
    | .reference (.str id) => pure (some (Object.ofSubject (subjectOf id)), progress)
    | .reference _ => throw (.toRdfError "@id must be a string")
    | .node => do
      let (subject, progress) ← processNodeWith fields graph progress fun subject =>
        processProperties doubles graph subject fields
      pure (some (Object.ofSubject subject), progress)
  | _, progress => pure (none, progress)

/-- The properties of a node; the keywords are skipped. -/
def processProperties (doubles : Doubles) (graph : GraphLabel) (subject : Subject) :
    List (String × Json) → Progress → Except RdfError Progress
  | [], progress => pure progress
  | (key, .arr items) :: members, progress =>
    if Text.startsWith "@" key then processProperties doubles graph subject members progress
    else do
      let progress ← processItems doubles graph subject ⟨key.toList⟩ items progress
      processProperties doubles graph subject members progress
  | _ :: members, progress => processProperties doubles graph subject members progress

def processItems (doubles : Doubles) (graph : GraphLabel) (subject : Subject) (predicate : NamedNode) :
    List Json → Progress → Except RdfError Progress
  | [], progress => pure progress
  | item :: items, progress => do
    let (object, progress) ← valueToObject doubles graph item progress
    let progress := match object with
      | some object => progress.add ⟨subject, predicate, object, graph⟩
      | none => progress
    processItems doubles graph subject predicate items progress

/-- The list under the first `@list` of an object. -/
def listMember (doubles : Doubles) (graph : GraphLabel) :
    List (String × Json) → Progress → Except RdfError (Object × Progress)
  | (key, .arr items) :: members, progress =>
    if key = "@list" then listToRdf doubles graph items progress else listMember doubles graph members progress
  | (key, _) :: members, progress =>
    if key = "@list" then throw (.toRdfError "@list must be an array") else listMember doubles graph members progress
  | [], _ => throw (.toRdfError "@list must be an array")

/-- A list with `rdf:first`, `rdf:rest` and `rdf:nil`, built from its end. -/
def listToRdf (doubles : Doubles) (graph : GraphLabel) :
    List Json → Progress → Except RdfError (Object × Progress)
  | [], progress => pure (.named ⟨rdf.nil⟩, progress)
  | item :: items, progress => do
    let (rest, progress) ← listToRdf doubles graph items progress
    let (object, progress) ← valueToObject doubles graph item progress
    listNode graph object rest progress

end

def processNode (doubles : Doubles) (node : Json.Fields) (graph : GraphLabel) (progress : Progress) :
    Except RdfError (Subject × Progress) :=
  processNodeWith node graph progress fun subject => processProperties doubles graph subject node

def processNodes (doubles : Doubles) : List Json → Progress → Except RdfError Progress
  | [], progress => pure progress
  | .obj node :: nodes, progress => do
    let (_, progress) ← processNode doubles node .default progress
    processNodes doubles nodes progress
  | _ :: nodes, progress => processNodes doubles nodes progress

/-- Convert expanded JSON-LD to a dataset. -/
def toRdf (doubles : Doubles) (expanded : Json) : Except RdfError Dataset :=
  match expanded with
  | .arr nodes => do
    let progress ← processNodes doubles nodes ⟨[], 0⟩
    pure ⟨progress.quads⟩
  | _ => throw (.toRdfError "expanded JSON-LD must be an array")

def expandAndToRdf (bundled : Bundled) (doubles : Doubles) (document : Json) : Except RdfError Dataset := do
  let expanded ← expandDocument bundled document
  toRdf doubles expanded

def expandAndToRdfSafe (bundled : Bundled) (doubles : Doubles) (document : Json) : Except RdfError Dataset := do
  let expanded ← expandDocumentSafe bundled document
  toRdf doubles expanded

end AffinidiTdk.Jsonld
