/-
DID methods and their identifiers (`affinidi-did-common`, `did.rs`, `did_method/`; `affinidi-encoding`,
`multibase.rs`, `multicodec.rs`). A text is the list of its characters. What is decoded by other crates
(URLs, base58, variable-length integers) is a parameter, whose failures are texts.
-/
import AffinidiTdk.Lib.Abnf
import AffinidiTdk.Lib.Except

namespace AffinidiTdk.Did

open List

abbrev Text := List Char

/-- What the crates `url`, `bs58` and `unsigned_varint` decode. -/
structure Decoders (Url : Type) where
  parseUrl : Text → Except String Url
  bs58Decode : Text → Except String (List UInt8)
  varintDecode : List UInt8 → Except String (ℕ × List UInt8)

/-- The error kinds of the crate. -/
inductive DIDError
  | missingPrefix
  | invalidMethod (m : String)
  | invalidMethodSpecificId (id : String)
  | invalidPath (msg : String)
  | invalidQuery (msg : String)
  | invalidFragment (msg : String)
  | invalidUrl (msg : String)
  | resolutionError (msg : String)
  deriving DecidableEq

def str (text : Text) : String := String.ofList text

/-! ## Texts -/

def stripPrefix (pre s : Text) : Option Text := if pre.isPrefixOf s then some (s.drop pre.length) else none

theorem stripPrefix_eq_some_iff {pre s rest : Text} : stripPrefix pre s = some rest ↔ s = pre ++ rest := by
  unfold stripPrefix
  constructor
  · intro h
    split_ifs at h with hpre
    obtain ⟨tail, rfl⟩ := isPrefixOf_iff_prefix.1 hpre
    rw [drop_left] at h
    rw [Option.some.inj h]
  · rintro rfl
    rw [if_pos ( isPrefixOf_iff_prefix.2 (prefix_append pre rest)), drop_left]

def splitOnce (sep : Char) (s : Text) : Option (Text × Text) :=
  if s.contains sep then some (s.takeWhile (· ≠ sep), (s.dropWhile (· ≠ sep)).tail) else none

theorem splitOnce_append {sep : Char} {first rest : Text} (h : sep ∉ first) :
    splitOnce sep (first ++ sep :: rest) = some (first, rest) := by
  have hall : ∀ c ∈ first, decide (c ≠ sep) = true := fun c hc =>
    decide_eq_true fun heq => h (heq ▸ hc)
  have hmem : (first ++ sep :: rest).contains sep = true :=
    contains_iff_mem.2 (mem_append_right first mem_cons_self)
  rw [splitOnce, if_pos hmem, takeWhile_append_of_pos hall, dropWhile_append_of_pos hall]
  simp

theorem splitOnce_eq_some_iff {sep : Char} {s first rest : Text} :
    splitOnce sep s = some (first, rest) ↔ s = first ++ sep :: rest ∧ sep ∉ first := by
  constructor
  · intro h
    unfold splitOnce at h
    split_ifs at h with hmem
    obtain ⟨before, after, rfl, hbefore⟩ := eq_append_cons_of_mem (contains_iff_mem.1 hmem)
    have hsplit : splitOnce sep (before ++ sep :: after) = some (before, after) := splitOnce_append hbefore
    rw [splitOnce, if_pos hmem, Option.some.inj h] at hsplit
    cases hsplit
    exact ⟨rfl, hbefore⟩
  · rintro ⟨rfl, hfirst⟩
    exact splitOnce_append hfirst

/-- `chars` one after the other: an allowed character, or `%` and two hexadecimal digits looked ahead for. -/
def validateSequence (allowed : Char → Bool) : Text → Except String Unit
  | [] => pure ()
  | c :: rest =>
    if allowed c then validateSequence allowed rest
    else if c = '%' then
      match rest with
      | h1 :: h2 :: rest =>
        if Abnf.isHexDigit h1 && Abnf.isHexDigit h2 then validateSequence allowed rest
        else throw "invalid percent-encoding"
      | _ => throw "invalid percent-encoding"
    else throw s!"invalid character '{c}'"

def isIdchar (c : Char) : Bool := c.isAlphanum || c == '.' || c == '-' || c == '_'

def validateIdentifierFormat (s : Text) : Except DIDError Unit := do
  if s.isEmpty then throw (.invalidMethodSpecificId "empty")
  if s.getLast? = some ':' then throw (.invalidMethodSpecificId "cannot end with ':'")
  (validateSequence (fun c => isIdchar c || c == ':') s).mapError .invalidMethodSpecificId

/-! ## Multikeys -/

def decodeBase58btc {Url : Type} (crates : Decoders Url) (s : Text) : Except String (List UInt8) :=
  match stripPrefix ['z'] s with
  | none => throw s!"Invalid multibase prefix: expected 'z' (base58btc), got '{s.headD (Char.ofNat 0)}'"
  | some encoded => (crates.bs58Decode encoded).mapError fun e => s!"Invalid base58 encoding: {e}"

def decodeMultikeyWithCodec {Url : Type} (crates : Decoders Url) (key : Text) : Except String (ℕ × List UInt8) := do
  let bytes ← decodeBase58btc crates key
  (crates.varintDecode bytes).mapError fun e => s!"Invalid multicodec: varint decode: {e}"

/-- The multicodec prefixes that are known. -/
inductive Codec
  | ed25519Pub
  | ed25519Priv
  | x25519Pub
  | x25519Priv
  | secp256k1Pub
  | secp256k1Priv
  | p256Pub
  | p256Priv
  | p384Pub
  | p384Priv
  | p521Pub
  | p521Priv
  | bls12381G1Pub
  | bls12381G2Pub
  | mlDsa44Pub
  | mlDsa44PrivSeed
  | mlDsa65Pub
  | mlDsa65PrivSeed
  | mlDsa87Pub
  | mlDsa87PrivSeed
  | slhDsaSha2_128sPub
  | unknown (value : ℕ)
  deriving DecidableEq

namespace Codec

def fromU64 (value : ℕ) : Codec :=
  if value = 0xed then ed25519Pub
  else if value = 0x1300 then ed25519Priv
  else if value = 0xec then x25519Pub
  else if value = 0x1302 then x25519Priv
  else if value = 0xe7 then secp256k1Pub
  else if value = 0x1301 then secp256k1Priv
  else if value = 0x1200 then p256Pub
  else if value = 0x1306 then p256Priv
  else if value = 0x1201 then p384Pub
  else if value = 0x1307 then p384Priv
  else if value = 0x1202 then p521Pub
  else if value = 0x1308 then p521Priv
  else if value = 0xea then bls12381G1Pub
  else if value = 0xeb then bls12381G2Pub
  else if value = 0x1210 then mlDsa44Pub
  else if value = 0x131a then mlDsa44PrivSeed
  else if value = 0x1211 then mlDsa65Pub
  else if value = 0x131b then mlDsa65PrivSeed
  else if value = 0x1212 then mlDsa87Pub
  else if value = 0x131c then mlDsa87PrivSeed
  else if value = 0x1220 then slhDsaSha2_128sPub
  else unknown value

def isPublic : Codec → Bool
  | ed25519Pub | x25519Pub | secp256k1Pub | p256Pub | p384Pub | p521Pub => true
  | bls12381G1Pub | bls12381G2Pub | mlDsa44Pub | mlDsa65Pub | mlDsa87Pub | slhDsaSha2_128sPub => true
  | _ => false

def expectedKeyLength : Codec → Option ℕ
  | ed25519Pub | ed25519Priv | x25519Pub | x25519Priv => some 32
  | secp256k1Pub | p256Pub => some 33
  | p384Pub => some 49
  | p521Pub => some 67
  | bls12381G1Pub => some 48
  | bls12381G2Pub => some 96
  | mlDsa44Pub => some 1312
  | mlDsa65Pub => some 1952
  | mlDsa87Pub => some 2592
  | mlDsa44PrivSeed | mlDsa65PrivSeed | mlDsa87PrivSeed => some 32
  | slhDsaSha2_128sPub => some 32
  | _ => none

end Codec

/-! ## Methods -/

/-- The three versions of `did:peer`. -/
inductive PeerNumAlgo
  | inceptionKey
  | genesisDoc
  | multipleKeys
  deriving DecidableEq

namespace PeerNumAlgo

def fromChar : Char → Option PeerNumAlgo
  | '0' => some inceptionKey
  | '1' => some genesisDoc
  | '2' => some multipleKeys
  | _ => none

end PeerNumAlgo

/-- What an entry of a `did:peer:2` is for. -/
inductive PeerPurpose
  | assertion
  | delegation
  | encryption
  | invocation
  | verification
  | service
  deriving DecidableEq

namespace PeerPurpose

def fromChar : Char → Option PeerPurpose
  | 'A' => some assertion
  | 'D' => some delegation
  | 'E' => some encryption
  | 'I' => some invocation
  | 'V' => some verification
  | 'S' => some service
  | _ => none

def isKey (purpose : PeerPurpose) : Bool := purpose ≠ service

end PeerPurpose

/-- A DID method with what its identifier says. -/
inductive DIDMethod
  | key (identifier : Text) (codec : Codec) (keyBytes : List UInt8)
  | peer (identifier : Text) (numalgo : PeerNumAlgo)
  | web (identifier domain : Text) (pathSegments : List Text)
  | jwk (identifier : Text)
  | ethr (identifier : Text)
  | pkh (identifier chainNamespace chainReference accountAddress : Text)
  | webvh (identifier scid domain : Text) (pathSegments : List Text)
  | cheqd (identifier network uuid : Text)
  | scid (identifier underlyingMethod version scid : Text)
  | ebsi (identifier : Text)
  | other (method identifier : Text)
  deriving DecidableEq

namespace DIDMethod

def name : DIDMethod → Text
  | key .. => "key".toList
  | peer .. => "peer".toList
  | web .. => "web".toList
  | jwk .. => "jwk".toList
  | ethr .. => "ethr".toList
  | pkh .. => "pkh".toList
  | webvh .. => "webvh".toList
  | cheqd .. => "cheqd".toList
  | scid .. => "scid".toList
  | ebsi .. => "ebsi".toList
  | other method _ => method

def identifier : DIDMethod → Text
  | key identifier _ _ => identifier
  | peer identifier _ => identifier
  | web identifier _ _ => identifier
  | jwk identifier => identifier
  | ethr identifier => identifier
  | pkh identifier _ _ _ => identifier
  | webvh identifier _ _ _ => identifier
  | cheqd identifier _ _ => identifier
  | scid identifier _ _ _ => identifier
  | ebsi identifier => identifier
  | other _ identifier => identifier

end DIDMethod

/-! ## Parsing -/

section Parse

variable {Url : Type} (crates : Decoders Url)

/-- The lower-case hexadecimal digits of a codec. -/
def hex (value : ℕ) : String := String.ofList (Nat.toDigits 16 value)

/-- The length a codec asks of its key; `message` gets the length expected. -/
def checkKeyLength (codec : Codec) (keyBytes : List UInt8) (message : ℕ → String) : Except DIDError Unit :=
  match codec.expectedKeyLength with
  | some expected => if keyBytes.length ≠ expected then throw
      (.invalidMethodSpecificId (message expected)) else pure ()
  | none => pure ()

def parseKey (identifier : Text) : Except DIDError DIDMethod := do
  let (codecValue, keyBytes) ← (decodeMultikeyWithCodec crates identifier).mapError fun e =>
    .invalidMethodSpecificId s!"invalid did:key encoding: {e}"
  let codec := Codec.fromU64 codecValue
  if !codec.isPublic then throw (.invalidMethodSpecificId s!"unsupported did:key codec: 0x{hex codecValue}")
  checkKeyLength codec keyBytes fun expected =>
    s!"invalid key length for codec 0x{hex codecValue}: expected {expected}, got {keyBytes.length}"
  pure (.key identifier codec keyBytes)

/-- The checks of `did:peer:0`. -/
def checkInceptionKey (keyId : Text) : Except DIDError Unit := do
  let (codecValue, keyBytes) ← (decodeMultikeyWithCodec crates keyId).mapError fun e =>
    .invalidMethodSpecificId s!"invalid did:peer:0 key encoding: {e}"
  let codec := Codec.fromU64 codecValue
  if !codec.isPublic then throw (.invalidMethodSpecificId s!"unsupported did:peer:0 codec: 0x{hex codecValue}")
  checkKeyLength codec keyBytes fun expected =>
    s!"invalid key length for did:peer:0: expected {expected}, got {keyBytes.length}"

/-- The checks of one entry of a `did:peer:2`; an empty one is passed over. -/
def checkPeerPart : Text → Except DIDError Unit
  | [] => pure ()
  | purposeChar :: keyData =>
    match PeerPurpose.fromChar purposeChar with
    | none => throw (.invalidMethodSpecificId s!"invalid did:peer:2 purpose code: '{purposeChar}'")
    | some purpose => do
      if purpose.isKey then
        if keyData.isEmpty then throw (.invalidMethodSpecificId "did:peer:2 key entry has no key data")
        let _ ← (decodeMultikeyWithCodec crates keyData).mapError fun e =>
          DIDError.invalidMethodSpecificId s!"invalid did:peer:2 key encoding: {e}"

def checkMultipleKeys (identifier : Text) : Except DIDError Unit := do
  if identifier.length < 2 || (identifier.drop 1).head? != some '.' then
    throw (.invalidMethodSpecificId "did:peer:2 must have format 2.<parts>")
  ((identifier.drop 2).splitOn '.').forM (checkPeerPart crates)

def parsePeer : Text → Except DIDError DIDMethod
  | [] => throw (.invalidMethodSpecificId "empty peer DID")
  | firstChar :: rest =>
    match PeerNumAlgo.fromChar firstChar with
    | none => throw (.invalidMethodSpecificId s!"invalid peer numalgo: '{firstChar}'")
    | some numalgo => do
      match numalgo with
      | .inceptionKey => checkInceptionKey crates rest
      | .genesisDoc => throw (.invalidMethodSpecificId "did:peer type 1 (genesis doc) is not supported")
      | .multipleKeys => checkMultipleKeys crates (firstChar :: rest)
      pure (.peer (firstChar :: rest) numalgo)

/-- The segments between colons. -/
def segments (identifier : Text) : List Text := identifier.splitOn ':'

/-- `join(":")`. -/
def joinColon (parts : List Text) : Text := [':'].intercalate parts

def parseWeb (identifier : Text) : Except DIDError DIDMethod :=
  pure (.web identifier ((segments identifier).headD []) (segments identifier).tail)

def parsePkh (identifier : Text) : Except DIDError DIDMethod :=
  match segments identifier with
  | chainNamespace :: chainReference :: accountAddress :: more =>
    pure (.pkh identifier chainNamespace chainReference (joinColon (accountAddress :: more)))
  | _ => throw (.invalidMethodSpecificId "did:pkh requires format <namespace>:<reference>:<address>")

def parseWebvh (identifier : Text) : Except DIDError DIDMethod :=
  match segments identifier with
  | scid :: domain :: pathSegments => pure (.webvh identifier scid domain pathSegments)
  | _ => throw (.invalidMethodSpecificId "did:webvh requires at least <scid>:<domain>")

def parseCheqd (identifier : Text) : Except DIDError DIDMethod :=
  match segments identifier with
  | network :: uuid :: more => pure (.cheqd identifier network (joinColon (uuid :: more)))
  | _ => throw (.invalidMethodSpecificId "did:cheqd requires format <network>:<uuid>")

def parseScid (identifier : Text) : Except DIDError DIDMethod :=
  match segments identifier with
  | underlyingMethod :: version :: scid :: more =>
    pure (.scid identifier underlyingMethod version (joinColon (scid :: more)))
  | _ => throw (.invalidMethodSpecificId "did:scid requires format <method>:<version>:<scid>")

def parseEbsi (identifier : Text) : Except DIDError DIDMethod := do
  if identifier.head? != some 'z' then
    throw (.invalidMethodSpecificId "did:ebsi identifier must start with 'z' (base58btc)")
  let b58Content := identifier.drop 1
  if b58Content.length < 21 || b58Content.length > 23 then
    throw (.invalidMethodSpecificId
      s!"did:ebsi identifier has invalid length: {identifier.length} (expected 22-24 total)")
  pure (.ebsi identifier)

/-- The methods that have a parser of their own. -/
def parsers : List (Text × (Text → Except DIDError DIDMethod)) :=
  [("key".toList, parseKey crates), ("peer".toList, parsePeer crates), ("web".toList, parseWeb),
   ("jwk".toList, fun identifier => pure (.jwk identifier)),
     ("ethr".toList, fun identifier => pure (.ethr identifier)),
   ("pkh".toList, parsePkh), ("webvh".toList, parseWebvh), ("cheqd".toList, parseCheqd), ("scid".toList, parseScid),
   ("ebsi".toList, parseEbsi)]

def parseMethod (methodName identifier : Text) : Except DIDError DIDMethod := do
  validateIdentifierFormat identifier
  match (parsers crates).lookup methodName with
  | some parser => parser identifier
  | none => pure (.other methodName identifier)

end Parse

end AffinidiTdk.Did
