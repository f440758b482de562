/-
RDF terms, quads and datasets (`affinidi-rdf-encoding`, `model.rs`, `error.rs`). A text is the list of
its characters.
-/
import AffinidiTdk.Lib.Except
import Mathlib.Algebra.GroupWithZero.Nat
import Mathlib.Data.List.Sort

namespace AffinidiTdk.Rdf

abbrev Text := List Char

/-! ## Terms -/

/-- An IRI. -/
@[ext]
structure NamedNode where
  iri : Text
  deriving DecidableEq

/-- A blank node by its label. -/
@[ext]
structure BlankNode where
  id : Text
  deriving DecidableEq

/-- A literal value with its datatype and, where it has one, its language tag. -/
structure Literal where
  value : Text
  datatype : NamedNode
  language : Option Text
  deriving DecidableEq

namespace xsd

def string : Text := "http://www.w3.org/2001/XMLSchema#string".toList

def boolean : Text := "http://www.w3.org/2001/XMLSchema#boolean".toList

def integer : Text := "http://www.w3.org/2001/XMLSchema#integer".toList

def double : Text := "http://www.w3.org/2001/XMLSchema#double".toList

end xsd

namespace rdf

def type : Text := "http://www.w3.org/1999/02/22-rdf-syntax-ns#type".toList

def first : Text := "http://www.w3.org/1999/02/22-rdf-syntax-ns#first".toList

def rest : Text := "http://www.w3.org/1999/02/22-rdf-syntax-ns#rest".toList

def nil : Text := "http://www.w3.org/1999/02/22-rdf-syntax-ns#nil".toList

def langString : Text := "http://www.w3.org/1999/02/22-rdf-syntax-ns#langString".toList

def json : Text := "http://www.w3.org/1999/02/22-rdf-syntax-ns#JSON".toList

end rdf

namespace Literal

/-- A plain string. -/
def new (value : Text) : Literal := ⟨value, ⟨xsd.string⟩, none⟩

def typed (value : Text) (datatype : NamedNode) : Literal := ⟨value, datatype, none⟩

def lang (value language : Text) : Literal := ⟨value, ⟨rdf.langString⟩, some language⟩

end Literal

/-- The subject of a quad. -/
inductive Subject
  | named (n : NamedNode)
  | blank (b : BlankNode)
  deriving DecidableEq

/-- The object of a quad. -/
inductive Object
  | named (n : NamedNode)
  | blank (b : BlankNode)
  | literal (lit : Literal)
  deriving DecidableEq

/-- The graph a quad is in. -/
inductive GraphLabel
  | named (n : NamedNode)
  | blank (b : BlankNode)
  | default
  deriving DecidableEq

/-- A statement in a graph. -/
structure Quad where
  subject : Subject
  predicate : NamedNode
  object : Object
  graph : GraphLabel
  deriving DecidableEq

/-- The quads in the order they were added. -/
structure Dataset where
  quads : List Quad
  deriving DecidableEq

/-! ## Errors -/

/-- The error kinds of the crate. -/
inductive RdfError
  | nQuadsParseError (msg : String)
  | canonicalizationError (msg : String)
  | jsonLdExpansionError (msg : String)
  | contextError (msg : String)
  | toRdfError (msg : String)
  deriving DecidableEq

/-! ## Names -/

/-- The blank nodes of a quad, one for each position that has one (`quad_blank_node_ids`). -/
def quadBlankNodeIds (quad : Quad) : List Text :=
  (match quad.subject with
    | .blank b => [b.id]
    | .named _ => []) ++
  (match quad.object with
    | .blank b => [b.id]
    | .named _ | .literal _ => []) ++
  (match quad.graph with
    | .blank b => [b.id]
    | .named _ | .default => [])

/-- Whether the blank node stands in the quad, as subject, object or graph. -/
def Quad.referencesBlankNode (quad : Quad) (id : Text) : Bool :=
  (match quad.subject with
    | .blank b => b.id = id
    | .named _ => false) ||
  (match quad.object with
    | .blank b => b.id = id
    | .named _ | .literal _ => false) ||
  (match quad.graph with
    | .blank b => b.id = id
    | .named _ | .default => false)

def Dataset.quadsForBlankNode (dataset : Dataset) (id : Text) : List Quad :=
  dataset.quads.filter fun quad => quad.referencesBlankNode id

theorem Quad.referencesBlankNode_iff {quad : Quad} {id : Text} :
    quad.referencesBlankNode id = true ↔ id ∈ quadBlankNodeIds quad := by
  obtain ⟨subject, predicate, object, graph⟩ := quad
  cases subject <;> cases object <;> cases graph <;> simp [referencesBlankNode, quadBlankNodeIds, @eq_comm _ id,
    or_assoc]

/-- The IRIs of a quad, of its literal's datatype too. -/
def quadIris (quad : Quad) : List Text :=
  (match quad.subject with
    | .named n => [n.iri]
    | .blank _ => []) ++ quad.predicate.iri ::
  (match quad.object with
    | .named n => [n.iri]
    | .literal lit => [lit.datatype.iri]
    | .blank _ => []) ++
  (match quad.graph with
    | .named n => [n.iri]
    | .blank _ | .default => [])

def quadLiterals (quad : Quad) : List Literal :=
  match quad.object with
  | .literal lit => [lit]
  | .named _ | .blank _ => []

/-- The quad with its blank nodes renamed. -/
def Quad.rename (f : Text → Text) (quad : Quad) : Quad where
  subject :=
    match quad.subject with
    | .blank b => .blank ⟨f b.id⟩
    | .named n => .named n
  predicate := quad.predicate
  object :=
    match quad.object with
    | .blank b => .blank ⟨f b.id⟩
    | .named n => .named n
    | .literal lit => .literal lit
  graph :=
    match quad.graph with
    | .blank b => .blank ⟨f b.id⟩
    | .named n => .named n
    | .default => .default

theorem Quad.rename_congr {f g : Text → Text} {quad : Quad} (h : ∀ id ∈ quadBlankNodeIds quad, f id = g id) :
    quad.rename f = quad.rename g := by
  obtain ⟨subject, predicate, object, graph⟩ := quad
  cases subject <;> cases object <;> cases graph <;> simp_all [rename, quadBlankNodeIds]

end AffinidiTdk.Rdf
