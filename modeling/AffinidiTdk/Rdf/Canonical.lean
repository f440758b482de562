/-
RDF dataset canonicalization (`affinidi-rdf-encoding`, `rdfc1/`). A hash map is read in an order that
is not the program's to choose (`HashOrder`); `sha256` is the hexadecimal digest of a text. The
recursion over related blank nodes runs on fuel, and what runs out of it stops with `Halt.deep`.
-/
import AffinidiTdk.Rdf.NQuads
import Mathlib.Data.String.Basic

namespace AffinidiTdk.Rdf

open NQuads

/-- The order in which a hash map hands out its keys. -/
structure HashOrder where
  keys : List Text → List Text
  perm (ids : List Text) : (keys ids).Perm ids

/-- Out of fuel, or an error of the algorithm. -/
inductive Halt
  | deep
  | error (e : RdfError)
  deriving DecidableEq

/-! ## Issuing identifiers -/

/-- The labels that were issued, in order. -/
structure IdentifierIssuer where
  prefixText : Text
  counter : ℕ
  issued : List (Text × Text)
  order : List Text

namespace IdentifierIssuer

def new (prefixText : Text) : IdentifierIssuer := ⟨prefixText, 0, [], []⟩

/-- The identifier of a number. -/
def identifier (prefixText : Text) (n : ℕ) : Text := prefixText ++ Nat.toDigits 10 n

def get (issuer : IdentifierIssuer) (existing : Text) : Option Text := issuer.issued.lookup existing

def isIssued (issuer : IdentifierIssuer) (existing : Text) : Bool := (issuer.get existing).isSome

/-- The identifier of a blank node, a new one where it has none. -/
def issue (issuer : IdentifierIssuer) (existing : Text) : IdentifierIssuer × Text :=
  match issuer.get existing with
  | some canonical => (issuer, canonical)
  | none =>
    let canonical := identifier issuer.prefixText issuer.counter
    ({ issuer with
        counter := issuer.counter + 1
        issued := issuer.issued ++ [(existing, canonical)]
        order := issuer.order ++ [existing] }, canonical)

def issueAll (issuer : IdentifierIssuer) (ids : List Text) : IdentifierIssuer :=
  ids.foldl (fun issuer id => (issuer.issue id).1) issuer

end IdentifierIssuer

/-! ## Groups by hash -/

/-- Lists under keys that are kept in order (`BTreeMap<String, Vec<String>>`). -/
abbrev Groups := List (Text × List Text)

/-- `entry(hash).or_default().push(value)`. -/
def Groups.push (hash value : Text) : Groups → Groups
  | [] => [(hash, [value])]
  | (key, values) :: rest =>
    if hash < key then (hash, [value]) :: (key, values) :: rest
    else if hash = key then (key, values ++ [value]) :: rest
    else (key, values) :: push hash value rest

/-! ## Hashes -/

section
variable (sha256 : Text → Text)

/-- The quads of a blank node, once for each position it stands in. -/
def quadsOf (quads : List Quad) (id : Text) : List Quad :=
  quads.flatMap fun quad => (quadBlankNodeIds quad).filterMap fun other => if other = id then some quad else none

def sortTexts (texts : List Text) : List Text := texts.insertionSort (· ≤ ·)

def hashFirstDegreeQuads (blankNodeId : Text) (quads : List Quad) : Text :=
  sha256 ((sortTexts (quads.map fun quad => serializeQuadSubstituted quad blankNodeId)).flatMap (· ++ ['\n']))

/-- Where a blank node stands in a quad. -/
inductive Position
  | subject
  | object
  | graph
  deriving DecidableEq

def Position.asStr : Position → Text
  | subject => ['s']
  | object => ['o']
  | graph => ['g']

/-- What a canonicalization looks up: the quads, the hash of every blank node and the identifiers that
are final. -/
structure Lookup where
  quads : List Quad
  hashes : List (Text × Text)
  canonical : IdentifierIssuer

variable (look : Lookup)

def hashRelatedBlankNode (relatedId : Text) (position : Position) (predicateIri : Text)
    (tempIssuer : IdentifierIssuer) : Text :=
  let identifier :=
    match look.canonical.get relatedId, tempIssuer.get relatedId with
    | some canonical, _ => '_' :: ':' :: canonical
    | none, some temp => '_' :: ':' :: temp
    | none, none => (look.hashes.lookup relatedId).getD []
  sha256 (position.asStr ++ (if position ≠ .graph then '<' :: predicateIri ++ ['>'] else []) ++ identifier)

/-- The blank nodes of a quad other than the target, with the position and the predicate. -/
def relatedBlankNodes (quad : Quad) (targetId : Text) : List (Text × Position × Text) :=
  (match quad.subject with
    | .blank b => if b.id ≠ targetId then [(b.id, .subject, quad.predicate.iri)] else []
    | .named _ => []) ++
  (match quad.object with
    | .blank b => if b.id ≠ targetId then [(b.id, .object, quad.predicate.iri)] else []
    | .named _ | .literal _ => []) ++
  (match quad.graph with
    | .blank b => if b.id ≠ targetId then [(b.id, .graph, [])] else []
    | .named _ | .default => [])

/-- The related blank nodes of a blank node by their hashes. -/
def hashToRelated (blankNodeId : Text) (issuer : IdentifierIssuer) : Groups :=
  ((quadsOf look.quads blankNodeId).flatMap fun quad => relatedBlankNodes quad blankNodeId).foldl
    (fun groups related =>
      groups.push (hashRelatedBlankNode sha256 look related.1 related.2.1 related.2.2 issuer) related.1) []

end

/-! ## Permutations -/

/-- The largest `i` up to the given one with `arr[i - 1] < arr[i]`, and 0 where there is none. -/
def ascent (arr : List ℕ) : ℕ → ℕ
  | 0 => 0
  | i + 1 => if arr.getD i 0 ≥ arr.getD (i + 1) 0 then ascent arr i else i + 1

/-- The largest `j` up to the given one with `pivot < arr[j]`. -/
def successor (arr : List ℕ) (pivot : ℕ) : ℕ → ℕ
  | 0 => 0
  | j + 1 => if arr.getD (j + 1) 0 ≤ pivot then successor arr pivot j else j + 1

/-- The next permutation in the lexicographic order, where there is one. -/
def nextPermutation (arr : List ℕ) : Option (List ℕ) :=
  match ascent arr (arr.length - 1) with
  | 0 => none
  | i + 1 =>
    let j := successor arr (arr.getD i 0) (arr.length - 1)
    let swapped := (arr.set i (arr.getD j 0)).set j (arr.getD i 0)
    some (swapped.take (i + 1) ++ (swapped.drop (i + 1)).reverse)

def maxPermutations : ℕ := 10000

/-! ## Hashing by n degrees -/

/-- The best path so far and the issuer it leaves; no path yet is the empty text. -/
structure Choice where
  path : Text
  issuer : Option IdentifierIssuer

/-- A path that is already past the best one is given up. -/
def Choice.passedBy (choice : Choice) (path : Text) : Bool := choice.path ≠ [] ∧ choice.path < path

/-- Phase 1: the identifiers of the related nodes in the order of the permutation; those that get a new
one are left to the recursion. `none` where the path is given up. -/
def pathOf (canonical : IdentifierIssuer) (choice : Choice) :
    List Text → IdentifierIssuer → Text → List Text → Option (IdentifierIssuer × Text × List Text)
  | [], issuerCopy, path, recursionList => some (issuerCopy, path, recursionList)
  | related :: rest, issuerCopy, path, recursionList =>
    match canonical.get related with
    | some canonicalId =>
      let path := path ++ '_' :: ':' :: canonicalId
      if choice.passedBy path then none else pathOf canonical choice rest issuerCopy path recursionList
    | none =>
      let recursionList := if issuerCopy.isIssued related then recursionList else recursionList ++ [related]
      let path := path ++ '_' :: ':' :: (issuerCopy.issue related).2
      if choice.passedBy path then none
      else pathOf canonical choice rest (issuerCopy.issue related).1 path recursionList

/-- What the recursion computes for a blank node: its hash and the issuer it leaves. -/
abbrev Recursion := Text → IdentifierIssuer → Except Halt (Text × IdentifierIssuer)

/-- Phase 2: the hashes of the nodes that were left to the recursion. -/
def deepen (recurse : Recursion) (choice : Choice) :
    List Text → IdentifierIssuer → Text → Except Halt (Option (IdentifierIssuer × Text))
  | [], issuerCopy, path => pure (some (issuerCopy, path))
  | related :: rest, issuerCopy, path => do
    let (resultHash, issuerCopy) ← recurse related issuerCopy
    let path := path ++ '_' :: ':' :: (issuerCopy.get related).getD [] ++ '<' :: resultHash ++ ['>']
    if choice.passedBy path then pure none else deepen recurse choice rest issuerCopy path

def tryPermutation (canonical : IdentifierIssuer) (recurse : Recursion) (issuer : IdentifierIssuer)
    (related : List Text) (choice : Choice) : Except Halt Choice :=
  match pathOf canonical choice related issuer [] [] with
  | none => pure choice
  | some (issuerCopy, path, recursionList) => do
    match ← deepen recurse choice recursionList issuerCopy path with
    | none => pure choice
    | some (issuerCopy, path) =>
      if choice.path = [] ∨ path < choice.path then pure ⟨path, some issuerCopy⟩ else pure choice

/-- The permutations of a group from the given one on, as many as are left. -/
def permutationLoop (canonical : IdentifierIssuer) (recurse : Recursion) (issuer : IdentifierIssuer)
    (group : List Text) : ℕ → List ℕ → Choice → Except Halt (Choice × ℕ)
  | 0, _, _ =>
    throw (.error (.canonicalizationError s!"exceeded maximum permutations ({maxPermutations}) — possible DoS"))
  | left + 1, permIndices, choice => do
    let choice ← tryPermutation canonical recurse issuer (permIndices.filterMap fun idx => group[idx]?) choice
    match nextPermutation permIndices with
    | none => pure (choice, left)
    | some permIndices => permutationLoop canonical recurse issuer group left permIndices choice

/-- The groups in the order of their hashes: the data to hash and the issuer they leave. -/
def groupLoop (canonical : IdentifierIssuer) (recurse : Recursion) :
    Groups → Text → IdentifierIssuer → ℕ → Except Halt (Text × IdentifierIssuer)
  | [], dataToHash, chosenIssuer, _ => pure (dataToHash, chosenIssuer)
  | (hash, blankNodeList) :: rest, dataToHash, chosenIssuer, left => do
    let (choice, left) ← permutationLoop canonical recurse chosenIssuer blankNodeList left
      (List.range blankNodeList.length) ⟨[], none⟩
    groupLoop canonical recurse rest (dataToHash ++ hash ++ choice.path) (choice.issuer.getD chosenIssuer) left

def hashNdegreeQuads (sha256 : Text → Text) (look : Lookup) : ℕ → Recursion
  | 0, _, _ => throw .deep
  | fuel + 1, blankNodeId, issuer => do
    let (dataToHash, chosenIssuer) ← groupLoop look.canonical (hashNdegreeQuads sha256 look fuel)
      (hashToRelated sha256 look blankNodeId issuer) [] issuer maxPermutations
    pure (sha256 dataToHash, (chosenIssuer.issue blankNodeId).1)

/-! ## Canonicalization -/

/-- Identical quads are written alike; the first of them stays. -/
def dedupQuads : List Text → List Quad → List Quad
  | _, [] => []
  | seen, quad :: rest =>
    if serializeQuad quad ∈ seen then dedupQuads seen rest
    else quad :: dedupQuads (serializeQuad quad :: seen) rest

def serializeSorted (quads : List Quad) : Text :=
  (sortTexts (quads.map fun quad => serializeQuad quad ++ ['\n'])).flatten

def relabelQuad (issuer : IdentifierIssuer) (quad : Quad) : Quad :=
  quad.rename fun id => (issuer.get id).getD id

def blankNodes (quads : List Quad) : List Text := (quads.flatMap quadBlankNodeIds).dedup

/-- The hashes of the nodes of a group that have no identifier yet. -/
def hashPathList (recurse : Recursion) (canonical : IdentifierIssuer) :
    List Text → Except Halt (List (Text × IdentifierIssuer))
  | [] => pure []
  | bnId :: rest => do
    if canonical.isIssued bnId then hashPathList recurse canonical rest
    else
      let result ← recurse bnId ((IdentifierIssuer.new ['b']).issue bnId).1
      let results ← hashPathList recurse canonical rest
      pure (result :: results)

/-- Step 4: the groups of several nodes. -/
def nDegreeLoop (sha256 : Text → Text) (quads : List Quad) (hashes : List (Text × Text)) (fuel : ℕ) :
    Groups → IdentifierIssuer → Except Halt IdentifierIssuer
  | [], canonical => pure canonical
  | (_, bnIds) :: rest, canonical => do
    if bnIds.length ≤ 1 then nDegreeLoop sha256 quads hashes fuel rest canonical
    else
      let results ← hashPathList (hashNdegreeQuads sha256 ⟨quads, hashes, canonical⟩ fuel) canonical bnIds
      let sorted := results.insertionSort fun a b => a.1 ≤ b.1
      nDegreeLoop sha256 quads hashes fuel rest
        (sorted.foldl (fun canonical result => canonical.issueAll result.2.order) canonical)

/-- Step 2: the blank nodes by their first-degree hashes, in the order of the hash map. -/
def hashToBlankNodes (sha256 : Text → Text) (order : HashOrder) (quads : List Quad) : Groups :=
  (order.keys (blankNodes quads)).foldl
    (fun groups id => groups.push (hashFirstDegreeQuads sha256 id (quadsOf quads id)) id) []

/-- Step 3: the nodes whose hash is their own. -/
def issueUnique (groups : Groups) : IdentifierIssuer :=
  groups.foldl
    (fun canonical group => if group.2.length = 1 then canonical.issueAll group.2 else canonical)
    (.new "c14n".toList)

/-- The canonical text and the label of every blank node. -/
def canonicalizeWithLabelMap (sha256 : Text → Text) (order : HashOrder) (dataset : Dataset) :
    Except Halt (Text × List (Text × Text)) := do
  let quads := dedupQuads [] dataset.quads
  if blankNodes quads = [] then pure (serializeSorted quads, [])
  else
    let groups := hashToBlankNodes sha256 order quads
    let hashes := groups.flatMap fun group => group.2.map fun id => (id, group.1)
    let canonical ← nDegreeLoop sha256 quads hashes (blankNodes quads).length groups (issueUnique groups)
    pure (serializeSorted (quads.map (relabelQuad canonical)), canonical.issued.insertionSort fun a b => a.1 ≤ b.1)

def canonicalize (sha256 : Text → Text) (order : HashOrder) (dataset : Dataset) : Except Halt Text := do
  let (text, _) ← canonicalizeWithLabelMap sha256 order dataset
  pure text

end AffinidiTdk.Rdf
