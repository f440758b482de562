/-
Selecting parts of a document by JSON pointers (`affinidi-data-integrity`, `bbs_2023_transform.rs`): the
selection grows pointer by pointer, with null for the items of an array that are skipped, which a last
pass removes. A call that panics gives the message of its `expect` as an error.
-/
import AffinidiTdk.Lib.Json
import AffinidiTdk.Lib.Text

namespace AffinidiTdk.DataIntegrity.Pointers

open Json

/-! ## Pointers -/

/-- `str::replace` of the text of two characters `a` and `b`. -/
def replacePair (a b : Char) (text : List Char) : List Char → List Char
  | x :: y :: rest =>
    if x = a ∧ y = b then text ++ replacePair a b text rest else x :: replacePair a b text (y :: rest)
  | rest => rest

/-- `~1` stands for a slash and `~0` for a tilde. -/
def unescape (segment : String) : String :=
  String.ofList (replacePair '~' '0' ['~'] (replacePair '~' '1' ['/'] segment.toList))

/-- Whatever precedes the first slash is skipped, so a text without one has no segments. -/
def parsePointer (pointer : String) : List String := ((Text.split '/' pointer).drop 1).map unescape

/-! ## Positions in a value -/

/-- `path.parse::<usize>()`. -/
def parseIndex (path : String) : Option ℕ := Text.parseUnsigned (2 ^ 64) path

def indexValue : Json → String → Option Json
  | .obj fields, path => fields.lookup path
  | .arr items, path => (parseIndex path).bind fun i => items[i]?
  | _, _ => none

/-- The items with null pushed until there is one at `i`, which is then replaced. -/
def setItem (items : List Json) (i : ℕ) (value : Json) : List Json :=
  (items ++ List.replicate (i + 1 - items.length) Json.null).set i value

/-- Nothing happens to a value that is neither an object nor an array. -/
def setIndex : Json → String → Json → Json
  | .obj fields, path, value => .obj (Fields.insert path value fields)
  | .arr items, path, value =>
    match parseIndex path with
    | some i => .arr (setItem items i value)
    | none => .arr items
  | selected, _, _ => selected

/-! ## The selection -/

def carryId (source : Json) (selection : Fields) (idKey : String) : Fields :=
  match (source.get? idKey).bind asStr with
  | some id => if Text.startsWith "_:" id then selection else Fields.insert idKey (.str id) selection
  | none => selection

def carryType (source : Json) (selection : Fields) (typeKey : String) : Fields :=
  match source.get? typeKey with
  | some t => Fields.insert typeKey t selection
  | none => selection

/-- Carry over the ids that are no blank nodes, and the types. -/
def initSelection (selection : Fields) (source : Json) : Fields :=
  ["@type", "type"].foldl (carryType source) (["@id", "id"].foldl (carryId source) selection)

/-- A container for the members and items of `source`, where there is nothing yet. -/
def ensureIntermediate (selected : Json) (path : String) (source : Json) : Json :=
  if (indexValue selected path).isSome then selected
  else if source.asArray.isSome then setIndex selected path (.arr [])
  else setIndex selected path (.obj (initSelection [] source))

/-- The value of the last segment: the members of an object are added to those already selected. -/
def mergeValue (selection : Json) (path : String) : Json → Json
  | .obj fields =>
    let merged := ((indexValue selection path).bind asObject).getD []
    .obj (fields.foldl (fun merged member => Fields.insert member.1 member.2 merged) merged)
  | other => other

/-- Walk one pointer's path. What the code changes in place is put back at the same position. -/
def selectPath (source : Json) : List String → Json → Except String Json
  | [], _ => .error "index out of bounds"
  | path :: paths, selection =>
    match indexValue source path with
    | none => .ok selection
    | some childSource =>
      if paths = [] then .ok (setIndex selection path (mergeValue selection path childSource))
      else
        let selection := ensureIntermediate selection path childSource
        match indexValue selection path with
        | none => .error "intermediate exists"
        | some childSelection => do
          let childSelection ← selectPath childSource paths childSelection
          .ok (setIndex selection path childSelection)

mutual

/-- Remove the null items of every array. -/
def compactArrays : Json → Json
  | .arr items => .arr (compactItems items)
  | .obj fields => .obj (compactFields fields)
  | other => other

def compactItems : List Json → List Json
  | [] => []
  | item :: items => if item = .null then compactItems items else compactArrays item :: compactItems items

def compactFields : List (String × Json) → List (String × Json)
  | [] => []
  | (key, value) :: fields => (key, compactArrays value) :: compactFields fields

end

/-- The loop over the pointers: one without segments returns the whole document. -/
def selectPointers (document : Json) : List String → Json → Except String Json
  | [], selection => .ok (compactArrays selection)
  | pointer :: pointers, selection =>
    if parsePointer pointer = [] then .ok document
    else do
      let selection ← selectPath document (parsePointer pointer) selection
      selectPointers document pointers selection

/-- The selection before the first pointer. -/
def startSelection (document : Json) : Fields :=
  match document.get? "@context" with
  | some ctx => initSelection (Fields.insert "@context" ctx []) document
  | none => initSelection [] document

def selectJsonLd (document : Json) (pointers : List String) : Except String (Option Json) :=
  if pointers = [] then .ok none
  else do
    let selection ← selectPointers document pointers (.obj (startSelection document))
    .ok (some selection)

end AffinidiTdk.DataIntegrity.Pointers
