/-
SD-JWT issuance (`affinidi-sd-jwt`, `issuer.rs`): the claims are walked together with a disclosure
frame, the members and elements it names are taken out into disclosures, and their digests are left
in `_sd` arrays and `...` placeholders. The random draws are streams: each salt and each decoy that is
drawn takes the next one.
-/
import AffinidiTdk.Credentials.Compact
import Mathlib.Data.List.Sort
import Mathlib.Data.Prod.Lex

namespace AffinidiTdk.Credentials

open Json (Fields)

def reservedClaimNames : List String := ["_sd", "_sd_alg", "..."]

/-- The bytes that the generator gives to the salts and to the decoys, each in turn. -/
structure Rng where
  salt : ℕ → List UInt8
  decoy : ℕ → List UInt8

/-- What a run has made: its disclosures, and the digests of its decoys. -/
structure Drawn where
  disclosures : List Disclosure := []
  decoys : List String := []

namespace Drawn

def append (drawn later : Drawn) : Drawn :=
  ⟨drawn.disclosures ++ later.disclosures, drawn.decoys ++ later.decoys⟩

def push (drawn : Drawn) (disclosure : Disclosure) : Drawn :=
  { drawn with disclosures := drawn.disclosures ++ [disclosure] }

end Drawn

/-- The draws that are left after a run. -/
def Rng.after (rng : Rng) (drawn : Drawn) : Rng :=
  ⟨fun i => rng.salt (drawn.disclosures.length + i), fun i => rng.decoy (drawn.decoys.length + i)⟩

def generateSalt (rng : Rng) : String := String.ofList (Base64.encode (rng.salt 0))

def generateDecoyDigest (hasher : Hasher) (bytes : List UInt8) : String :=
  hasher.hashB64 (String.ofList (Base64.encode bytes))

/-- A value that has been processed, and what was made on the way. -/
structure Processed (α : Type) where
  value : α
  drawn : Drawn := {}

/-- An object after its loop: the members that stay, and the digests of those that do not. -/
structure Members where
  result : Fields
  sdDigests : List String

/-! ## Reading the frame -/

def sdClaims (frame : Option Fields) : List String :=
  (((frame.bind (·.lookup "_sd")).bind Json.asArray).getD []).filterMap Json.asStr

/-- `_sd_decoy`. -/
def decoyCount (frame : Option Fields) : ℕ := ((frame.bind (·.lookup "_sd_decoy")).bind Json.asU64).getD 0

/-- `str::parse::<usize>`: digits, after one plus sign at most. -/
def parseUsize (s : String) : Option ℕ :=
  let digits : List Char := match s.toList with
    | '+' :: rest => rest
    | chars => chars
  let n : ℕ := digits.foldl (fun n c => 10 * n + (c.toNat - '0'.toNat)) 0
  if digits ≠ [] ∧ digits.all Char.isDigit ∧ n < 2 ^ 64 then some n else none

def sdIndices (frame : Option Fields) : List ℕ := (sdClaims frame).filterMap parseUsize

/-- The error for a reserved name in `_sd`. -/
def reservedName (name : String) : SdJwtError :=
  .invalidFrame s!"\"{name}\" is a reserved claim name and cannot be selectively disclosed"

/-! ## Processing -/

variable (codec : JsonCodec) (hasher : Hasher)

namespace Disclosure

def newClaim (rng : Rng) (claimName : String) (claimValue : Json) : Disclosure :=
  build codec hasher (generateSalt rng) (some claimName) claimValue

def newArrayElement (rng : Rng) (claimValue : Json) : Disclosure :=
    build codec hasher (generateSalt rng) none claimValue

end Disclosure

/-- What stands around the loop of `process_object`: the check of the names, and after it the decoys
and the `_sd` array. -/
def processObjectOf (rng : Rng) (frame : Option Fields) (loop : Except SdJwtError (Processed Members)) :
    Except SdJwtError (Processed Fields) :=
  match (sdClaims frame).find? fun name => reservedClaimNames.contains name with
  | some name => .error (reservedName name)
  | none => do
    let members ← loop
    let decoys := (List.range (decoyCount frame)).map fun i =>
      generateDecoyDigest hasher ((rng.after members.drawn).decoy i)
    let sdDigests := members.value.sdDigests ++ decoys
    let result := if sdDigests = [] then members.value.result
      else Json.Fields.insert "_sd" (.arr ((sdDigests.insertionSort (· ≤ ·)).map .str)) members.value.result
    .ok ⟨result, members.drawn.append ⟨[], decoys⟩⟩

mutual

def processValue (rng : Rng) (frame : Json) : Json → Except SdJwtError (Processed Json)
  | .obj fields => do
    let object ← processObjectOf hasher rng frame.asObject (processMembers rng frame.asObject fields)
    .ok ⟨.obj object.value, object.drawn⟩
  | .arr items => do
    let array ← processElements rng frame.asObject 0 items
    .ok ⟨.arr array.value, array.drawn⟩
  | value => .ok ⟨value, {}⟩

/-- The loop of `process_object`. The keys come in ascending order, so each insert is at the end. -/
def processMembers (rng : Rng) (frame : Option Fields) :
    List (String × Json) → Except SdJwtError (Processed Members)
  | [] => .ok ⟨⟨[], []⟩, {}⟩
  | (key, value) :: claims => do
    -- an object or an array under a frame of its own is processed, anything else is cloned
    let processed ← (match frame.bind (·.lookup key) with
      | some subFrame => processValue rng subFrame value
      | none => .ok ⟨value, {}⟩)
    if key ∈ sdClaims frame then
      let disclosure := Disclosure.newClaim codec hasher (rng.after processed.drawn) key processed.value
      let drawn := processed.drawn.push disclosure
      let later ← processMembers (rng.after drawn) frame claims
      .ok ⟨⟨later.value.result, disclosure.digest :: later.value.sdDigests⟩, drawn.append later.drawn⟩
    else
      let later ← processMembers (rng.after processed.drawn) frame claims
      .ok ⟨⟨(key, processed.value) :: later.value.result, later.value.sdDigests⟩, processed.drawn.append later.drawn⟩

/-- The loop of `process_array`, from index `i` on. -/
def processElements (rng : Rng) (frame : Option Fields) (i : ℕ) : List Json →
    Except SdJwtError (Processed (List Json))
  | [] => .ok ⟨[], {}⟩
  | element :: array => do
    if i ∈ sdIndices frame then
      let disclosure := Disclosure.newArrayElement codec hasher rng element
      let drawn := Drawn.push {} disclosure
      let later ← processElements (rng.after drawn) frame (i + 1) array
      .ok ⟨.obj [("...", .str disclosure.digest)] :: later.value, drawn.append later.drawn⟩
    else
      let processed ← (match frame.bind (·.lookup (toString i)) with
        | some subFrame => processValue rng subFrame element
        | none => .ok ⟨element, {}⟩)
      let later ← processElements (rng.after processed.drawn) frame (i + 1) array
      .ok ⟨processed.value :: later.value, processed.drawn.append later.drawn⟩

end

def processObject (rng : Rng) (claims : Fields) (frame : Option Fields) : Except SdJwtError (Processed Fields) :=
  processObjectOf hasher rng frame (processMembers codec hasher rng frame claims)

/-! ## Issuing -/

mutual

def validateNoReservedKeys : Json → Except SdJwtError Unit
  | .obj fields =>
    if "..." ∈ fields.map Prod.fst then
      .error (.invalidFrame "\"...\" is a reserved key and must not appear in claims")
    else validateMembers fields
  | .arr items => validateItems items
  | _ => .ok ()

def validateItems : List Json → Except SdJwtError Unit
  | [] => .ok ()
  | item :: items => do
    validateNoReservedKeys item
    validateItems items

def validateMembers : List (String × Json) → Except SdJwtError Unit
  | [] => .ok ()
  | (_, value) :: fields => do
    validateNoReservedKeys value
    validateMembers fields

end

/-- The signer the issuer calls: header and payload to a JWS. -/
structure JwtSigner where
  algorithm : String
  keyId : Option String
  signJwt : Json → Json → Except SdJwtError String

/-- What `issue` does before it signs: the payload, and what was drawn for it. -/
def issuePayload (claims frame : Json) (holderJwk : Option Json) (rng : Rng) : Except SdJwtError (Processed Json) :=
  match claims.asObject with
  | none => .error (.invalidFrame "claims must be a JSON object")
  | some claimsObj => do
    validateNoReservedKeys claims
    let object ← processObject codec hasher rng claimsObj frame.asObject
    let payload := if object.drawn.disclosures = [] then object.value
      else Json.Fields.insert "_sd_alg" (.str hasher.algName) object.value
    let payload := match holderJwk with
      | none => payload
      | some jwk => Json.Fields.insert "cnf" (.obj [("jwk", jwk)]) payload
    .ok ⟨.obj payload, object.drawn⟩

def jwtHeader (signer : JwtSigner) : Json :=
  let header : Fields := [("alg", .str signer.algorithm), ("typ", .str "sd+jwt")]
  match signer.keyId with
  | none => .obj header
  | some kid => .obj (Json.Fields.insert "kid" (.str kid) header)

def issue (claims frame : Json) (signer : JwtSigner) (holderJwk : Option Json) (rng : Rng) :
    Except SdJwtError SdJwt := do
  let payload ← issuePayload codec hasher claims frame holderJwk rng
  let jws ← signer.signJwt (jwtHeader signer) payload.value
  .ok ⟨jws, payload.drawn.disclosures, none⟩

end AffinidiTdk.Credentials
