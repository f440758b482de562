/-
DIDs and DID URLs (`affinidi-did-common`, `did.rs`): reading one from a text, writing it, and replacing
its path, query or fragment.
-/
import AffinidiTdk.Did.Method

namespace AffinidiTdk.Did

/-! ## Characters -/

/-- `unreserved = ALPHA / DIGIT / "-" / "." / "_" / "~"`. -/
def isUnreserved (c : Char) : Bool := c.isAlphanum || c == '-' || c == '.' || c == '_' || c == '~'

/-- `sub-delims`. -/
def isSubDelims (c : Char) : Bool := "!$&'()*+,;=".toList.contains c

/-- `pchar`, percent-encoding apart. -/
def isPchar (c : Char) : Bool := isUnreserved c || isSubDelims c || c == ':' || c == '@'

def validatePcharSequence (s : Text) (allowSlashQuestion : Bool) : Except String Unit :=
  validateSequence (fun c => isPchar c || (allowSlashQuestion && (c == '/' || c == '?'))) s

def validatePath (s : Text) : Except DIDError Unit :=
  (s.splitOn '/').forM fun segment => (validatePcharSequence segment false).mapError .invalidPath

def validateQuery (s : Text) : Except DIDError Unit := (validatePcharSequence s true).mapError .invalidQuery

def validateFragment (s : Text) : Except DIDError Unit := (validatePcharSequence s true).mapError .invalidFragment

/-! ## Components -/

/-- The parts of a text after the method name; the method-specific identifier and what may follow it. -/
structure DIDUrlComponents where
  methodSpecificId : Text
  path : Option Text
  query : Option Text
  fragment : Option Text
  deriving DecidableEq

def noneIfEmpty (s : Text) : Option Text := if s.isEmpty then none else some s

/-- `s.find(pattern)`. -/
def find (s : Text) (pattern : Char → Bool) : Option ℕ := s.findIdx? pattern

/-- Where the method-specific identifier ends. -/
def idEnd (s : Text) : ℕ :=
  (([find s (· == '/'), find s (· == '?'), find s (· == '#')].filterMap id).min?).getD s.length

/-- The text up to the first character of the pattern, and the rest from there. -/
def cut (s : Text) (pattern : Char → Bool) : Text × Text :=
  let stop := (find s pattern).getD s.length
  (s.take stop, s.drop stop)

/-- What follows a number sign. -/
def fragmentOf (remainder : Text) : Option Text :=
  match stripPrefix ['#'] remainder with
  | some stripped => noneIfEmpty stripped
  | none => none

/-- Query and fragment of a text that starts with either. -/
def queryFragmentOf (remainder : Text) : Option Text × Option Text :=
  match stripPrefix ['?'] remainder with
  | some stripped => (noneIfEmpty (cut stripped (· == '#')).1, fragmentOf (cut stripped (· == '#')).2)
  | none => (none, fragmentOf remainder)

/-- The components, not yet validated. -/
def splitComponents (s : Text) : DIDUrlComponents :=
  let methodSpecificId := s.take (idEnd s)
  let remainder := s.drop (idEnd s)
  match stripPrefix ['/'] remainder with
  | some stripped =>
    let (path, remainder) := cut stripped fun c => c == '?' || c == '#'
    ⟨methodSpecificId, noneIfEmpty path, (queryFragmentOf remainder).1, (queryFragmentOf remainder).2⟩
  | none => ⟨methodSpecificId, none, (queryFragmentOf remainder).1, (queryFragmentOf remainder).2⟩

/-- A check of a component that may be absent. -/
def validateOption (validate : Text → Except DIDError Unit) : Option Text → Except DIDError Unit
  | some component => validate component
  | none => pure ()

def parseDidUrlComponents (s : Text) : Except DIDError DIDUrlComponents := do
  let components := splitComponents s
  validateOption validatePath components.path
  validateOption validateQuery components.query
  validateOption validateFragment components.fragment
  pure components

/-! ## DIDs -/

/-- A parsed DID URL. -/
structure DID (Url : Type) where
  method : DIDMethod
  path : Option Text
  query : Option Text
  fragment : Option Text
  url : Url
  deriving DecidableEq

/-- A component behind its separator. -/
def component (sep : Char) : Option Text → Text
  | some text => sep :: text
  | none => []

def didString (method : DIDMethod) (path query fragment : Option Text) : Text :=
  "did:".toList ++ method.name ++ [':'] ++ method.identifier ++ component '/' path ++ component '?' query ++
    component '#' fragment

namespace DID

variable {Url : Type} (crates : Decoders Url)

/-- `Display`. -/
def toText (did : DID Url) : Text := didString did.method did.path did.query did.fragment

def build (method : DIDMethod) (path query fragment : Option Text) : Except DIDError (DID Url) := do
  let url ← (crates.parseUrl (didString method path query fragment)).mapError .invalidUrl
  pure ⟨method, path, query, fragment, url⟩

def fromStr (s : Text) : Except DIDError (DID Url) := do
  let rest ← (stripPrefix "did:".toList s).elim (throw .missingPrefix) pure
  let (methodName, rest) ← (splitOnce ':' rest).elim (throw (.invalidMethod "missing method")) pure
  if methodName.isEmpty || !methodName.all (fun c => c.isLower || c.isDigit) then
    throw (.invalidMethod (str methodName))
  let components ← parseDidUrlComponents rest
  let method ← parseMethod crates methodName components.methodSpecificId
  build crates method components.path components.query components.fragment

def withPath (did : DID Url) (path : Text) : Except DIDError (DID Url) := do
  validatePath path
  build crates did.method (some path) did.query did.fragment

def withQuery (did : DID Url) (query : Text) : Except DIDError (DID Url) := do
  validateQuery query
  build crates did.method did.path (some query) did.fragment

def withFragment (did : DID Url) (fragment : Text) : Except DIDError (DID Url) := do
  validateFragment fragment
  build crates did.method did.path did.query (some fragment)

end DID

end AffinidiTdk.Did
